import Citus.Rebalancer.Phases
import Citus.Lib.Run
import Mathlib

/-!
# The invariants that CheckRebalanceStateInvariants asserts

In builds with assertions, `CheckRebalanceStateInvariants` runs after
`InitRebalanceState` and after every `MoveShardCost`. It asserts that
`fillStateListAsc` runs from the emptiest node up, that `fillStateListDesc` is its
reverse, and that every node lists its shard costs from the most expensive down with
a total that is their sum. The placements hash is kept in step with those lists.

With exact costs all of this holds of every state that `InitRebalanceState` and a
sequence of moves reach (`checkedInvariant_of_moveReachable`). Two facts carry the
proof:

* each comparator is the lexicographic order of a key (`fillStateAscKey`,
  `shardCostDescKey`), so `SortList` sorts by that key;
* the node id breaks the last tie, so on distinct nodes the descending comparator
  sorts into exactly the reverse list (`fillStateListDesc_eq_reverse`).
-/

namespace Citus.Rebalancer

open OrderDual

/-! ## Sorting by a key -/

/-- A comparator that orders by a key: `SortList` sorts by the key. -/
theorem sortList_pairwise {α κ : Type} [LinearOrder κ] (key : α → κ)
    {comparator : α → α → Ordering} (hkey : ∀ a b, comparator a b ≠ .gt ↔ key a ≤ key b)
    (list : List α) : (sortList list comparator).Pairwise fun a b => key a ≤ key b := by
  have hle : ∀ a b, (comparator a b != .gt) = true ↔ key a ≤ key b := fun a b => by
    rw [bne_iff_ne, hkey]
  have htotal : Std.Total fun a b => (comparator a b != .gt) = true :=
    ⟨fun a b => by simpa only [hle] using le_total (key a) (key b)⟩
  have htrans : IsTrans α fun a b => (comparator a b != .gt) = true :=
    ⟨fun a b c hab hbc => (hle a c).mpr (le_trans ((hle a b).mp hab) ((hle b c).mp hbc))⟩
  exact (List.pairwise_insertionSort _ list).imp fun h => (hle _ _).mp h

/-- Two comparators that are each other's swap, and order distinct elements of the
list strictly by a key, sort the list into reverse lists. -/
theorem sortList_swap_eq_reverse {α κ : Type} [LinearOrder κ] (key : α → κ)
    {comparator : α → α → Ordering} (hkey : ∀ a b, comparator a b ≠ .gt ↔ key a ≤ key b)
    (hswap : ∀ a b, comparator a b ≠ .lt ↔ key b ≤ key a) {list : List α}
    (hinj : ∀ a ∈ list, ∀ b ∈ list, key a = key b → a = b) :
    sortList list (fun a b => (comparator a b).swap) = (sortList list comparator).reverse := by
  have hdesc : ∀ a b, (comparator a b).swap ≠ .gt ↔ toDual (key a) ≤ toDual (key b) :=
    fun a b => by rw [Ne, Ordering.swap_eq_gt, ← Ne, hswap, toDual_le_toDual]
  -- both lists are sorted by the key from the top, and hold the same elements
  have hdescSorted : (sortList list fun a b => (comparator a b).swap).Pairwise
      fun a b => key b ≤ key a :=
    sortList_pairwise (fun a => toDual (key a)) hdesc list
  have hascSorted : (sortList list comparator).reverse.Pairwise fun a b => key b ≤ key a :=
    List.pairwise_reverse.mpr (sortList_pairwise key hkey list)
  refine List.Perm.eq_of_pairwise ?_ hdescSorted hascSorted
    ((sortList_perm _ _).trans ((sortList_perm _ _).symm.trans (List.reverse_perm _).symm))
  intro a b ha hb hab hba
  exact hinj a (mem_sortList.mp ha) b (mem_sortList.mp (List.mem_reverse.mp hb))
    (le_antisymm hba hab)

/-! ## The keys of the comparators -/

/-- The key `CompareNodeFillStateAsc` orders by: the utilization, then the larger
capacity first, then the node id. -/
def fillStateAscKey (fillState : NodeFillState) : WithTop ℚ ×ₗ ℚᵒᵈ ×ₗ ℕ :=
  toLex (fillState.utilization, toLex (toDual fillState.capacity, fillState.node))

/-- The key `CompareShardCostDesc` orders by: the larger cost first, then the
shard id. -/
def shardCostDescKey (shardCost : ShardCost) : ℚᵒᵈ ×ₗ ℕ :=
  toLex (toDual shardCost.cost, shardCost.shardId)

theorem compareNodeFillStateAsc_ne_gt_iff (a b : NodeFillState) :
    compareNodeFillStateAsc a b ≠ .gt ↔ fillStateAscKey a ≤ fillStateAscKey b := by
  simp only [compareNodeFillStateAsc, fillStateAscKey, Prod.Lex.toLex_le_toLex,
    toDual_lt_toDual, toDual_inj]
  split_ifs with hu hu' hc hc'
  · simp [hu]
  · simp [hu'.ne', not_lt.mpr hu'.le]
  · simp [hc, le_antisymm (not_lt.mp hu') (not_lt.mp hu)]
  · simp [hc'.ne, not_lt.mpr hc'.le, hu]
  · have hcap : a.capacity = b.capacity := le_antisymm (not_lt.mp hc) (not_lt.mp hc')
    simp [hcap, compare_gt_iff_gt, le_antisymm (not_lt.mp hu') (not_lt.mp hu)]

theorem compareNodeFillStateAsc_ne_lt_iff (a b : NodeFillState) :
    compareNodeFillStateAsc a b ≠ .lt ↔ fillStateAscKey b ≤ fillStateAscKey a := by
  simp only [compareNodeFillStateAsc, fillStateAscKey, Prod.Lex.toLex_le_toLex,
    toDual_lt_toDual, toDual_inj]
  split_ifs with hu hu' hc hc'
  · simp [hu.ne', not_lt.mpr hu.le]
  · simp [hu']
  · simp [hc.ne, not_lt.mpr hc.le, le_antisymm (not_lt.mp hu') (not_lt.mp hu)]
  · simp [hc', le_antisymm (not_lt.mp hu') (not_lt.mp hu)]
  · have hcap : a.capacity = b.capacity := le_antisymm (not_lt.mp hc) (not_lt.mp hc')
    simp [hcap, compare_lt_iff_lt, le_antisymm (not_lt.mp hu') (not_lt.mp hu)]

theorem compareShardCostDesc_ne_gt_iff (a b : ShardCost) :
    compareShardCostDesc a b ≠ .gt ↔ shardCostDescKey a ≤ shardCostDescKey b := by
  simp only [compareShardCostDesc, compareShardCostAsc, shardCostDescKey,
    Prod.Lex.toLex_le_toLex, toDual_lt_toDual, toDual_inj]
  split_ifs with hc hc' hs hs'
  · simp [hc.ne, not_lt.mpr hc.le]
  · simp [hc']
  · have hcost : a.cost = b.cost := le_antisymm (not_lt.mp hc') (not_lt.mp hc)
    simp [hcost, not_le.mpr hs]
  · have hcost : a.cost = b.cost := le_antisymm (not_lt.mp hc') (not_lt.mp hc)
    simp [hcost, hs'.le]
  · have hcost : a.cost = b.cost := le_antisymm (not_lt.mp hc') (not_lt.mp hc)
    simp [hcost, not_lt.mp hs]

/-- The node id is the last part of the key, so distinct nodes have distinct keys. -/
theorem node_eq_of_fillStateAscKey_eq {a b : NodeFillState}
    (h : fillStateAscKey a = fillStateAscKey b) : a.node = b.node := by
  simp only [fillStateAscKey, EmbeddingLike.apply_eq_iff_eq, Prod.mk.injEq] at h
  exact h.2.2

/-! ## The sorted fill state lists -/

variable {state state' : RebalanceState}

theorem fillStateListAsc_pairwise (state : RebalanceState) :
    state.fillStateListAsc.Pairwise fun a b => fillStateAscKey a ≤ fillStateAscKey b :=
  sortList_pairwise fillStateAscKey compareNodeFillStateAsc_ne_gt_iff _

/-- On distinct nodes `fillStateListDesc` is `fillStateListAsc` reversed. -/
theorem fillStateListDesc_eq_reverse (hnodes : (state.fillStates.map NodeFillState.node).Nodup) :
    state.fillStateListDesc = state.fillStateListAsc.reverse :=
  sortList_swap_eq_reverse fillStateAscKey compareNodeFillStateAsc_ne_gt_iff
    compareNodeFillStateAsc_ne_lt_iff fun _ ha _ hb hkey =>
      List.inj_on_of_nodup_map hnodes ha hb (node_eq_of_fillStateAscKey_eq hkey)

/-! ## The invariant the moves keep -/

/-- The fill state of the placement's node lists a cost of the placement's shard. -/
def ListsPlacement (fillStates : List NodeFillState) (placement : ShardPlacement) : Prop :=
  ∃ f ∈ fillStates, f.node = placement.nodeId ∧
    ∃ shardCost ∈ f.shardCostListDesc, shardCost.shardId = placement.shardId

/-- A fill state lists its shard costs in the order of `CompareShardCostDesc`. -/
def CostsSorted (fillState : NodeFillState) : Prop :=
  fillState.shardCostListDesc.Pairwise fun a b => shardCostDescKey a ≤ shardCostDescKey b

/-- What `InitRebalanceState` establishes and every move keeps: `Consistent`, every
placement of the hash listed by its node, and the costs of every node sorted. -/
structure StateInvariant (state : RebalanceState) : Prop where
  consistent : Consistent state
  listed : ∀ placement ∈ state.placementsHash, ListsPlacement state.fillStates placement
  costs_sorted : ∀ fillState ∈ state.fillStates, CostsSorted fillState

theorem costsSorted_addShardCost (shardCost : ShardCost) (fillState : NodeFillState) :
    CostsSorted (addShardCost shardCost fillState) :=
  sortList_pairwise shardCostDescKey compareShardCostDesc_ne_gt_iff _

theorem CostsSorted.removeShardCost {fillState : NodeFillState} (h : CostsSorted fillState)
    (shardCost : ShardCost) : CostsSorted (Rebalancer.removeShardCost shardCost fillState) :=
  h.sublist List.erase_sublist

section MoveShardCost

variable {sourceNode targetNode : Nat} {shardCost : ShardCost}

theorem CostsSorted.movedFillState {fillState : NodeFillState} (h : CostsSorted fillState) :
    CostsSorted (Rebalancer.movedFillState sourceNode targetNode shardCost fillState) := by
  unfold Rebalancer.movedFillState
  split_ifs
  · exact h.removeShardCost shardCost
  · exact costsSorted_addShardCost shardCost fillState
  · exact h

/-- A move keeps every shard a fill state lists but the moved one on the source. -/
theorem mem_movedFillState {fillState : NodeFillState} {shardCost' : ShardCost}
    (hmem : shardCost' ∈ fillState.shardCostListDesc)
    (hmoved : fillState.node = sourceNode → shardCost' ≠ shardCost) :
    shardCost' ∈ (movedFillState sourceNode targetNode shardCost fillState).shardCostListDesc := by
  unfold movedFillState
  split_ifs with hsource
  · exact (List.mem_erase_of_ne (hmoved hsource)).mpr hmem
  · rw [addShardCost_shardCostListDesc, mem_sortList]
    exact List.mem_append_left _ hmem
  · exact hmem

/-- The target lists the moved shard. -/
theorem mem_movedFillState_target {fillState : NodeFillState} (hne : sourceNode ≠ targetNode)
    (htarget : fillState.node = targetNode) :
    shardCost ∈ (movedFillState sourceNode targetNode shardCost fillState).shardCostListDesc := by
  unfold movedFillState
  rw [if_neg (htarget ▸ hne.symm), if_pos htarget, addShardCost_shardCostListDesc, mem_sortList]
  exact List.mem_append_right _ (List.mem_singleton_self _)

/-- The step lemma for `MoveShardCost`: moving a shard that the source lists to another
node of the state that does not hold it keeps the invariant. -/
theorem StateInvariant.moveShardCost (h : StateInvariant state)
    (hsource : ∃ f ∈ state.fillStates, f.node = sourceNode ∧ shardCost ∈ f.shardCostListDesc)
    (htargetNode : ∃ g ∈ state.fillStates, g.node = targetNode)
    (htarget : ⟨shardCost.shardId, targetNode⟩ ∉ state.placementsHash) :
    StateInvariant (Rebalancer.moveShardCost sourceNode targetNode shardCost state) := by
  obtain ⟨fs, hfs, rfl, hmem⟩ := hsource
  obtain ⟨g, hg, rfl⟩ := htargetNode
  have hplaced := (h.consistent.fillState fs hfs).placed shardCost hmem
  have hne : fs.node ≠ g.node := fun he => htarget (he ▸ hplaced)
  refine ⟨consistent_moveShardCost h.consistent ⟨fs, hfs, rfl, hmem⟩ htarget, ?_, ?_⟩
  · rw [moveShardCost_placementsHash htarget, moveShardCost_fillStates hne]
    rintro ⟨shardId, node⟩ hp
    rcases List.mem_append.mp hp with hp | hp
    · -- a placement that stays is listed by its node as before
      obtain ⟨hpne, hpmem⟩ := h.consistent.hash_nodup.mem_erase_iff.mp hp
      obtain ⟨f, hf, hfn, sc, hsc, hscid⟩ := h.listed _ hpmem
      refine ⟨_, List.mem_map_of_mem hf, (movedFillState_node f).trans hfn, sc,
        mem_movedFillState hsc fun hsrc hsce => hpne ?_, hscid⟩
      have hid : shardId = shardCost.shardId := by
        rw [← hsce]
        exact hscid.symm
      have hnode : node = fs.node := hfn.symm.trans hsrc
      rw [hid, hnode]
    · -- the moved placement is listed by the target
      obtain ⟨rfl, rfl⟩ : shardId = shardCost.shardId ∧ node = g.node := by
        simpa using hp
      exact ⟨_, List.mem_map_of_mem hg, movedFillState_node g, shardCost,
        mem_movedFillState_target hne rfl, rfl⟩
  · rw [moveShardCost_fillStates hne]
    intro f' hf'
    obtain ⟨f, hf, rfl⟩ := List.mem_map.mp hf'
    exact (h.costs_sorted f hf).movedFillState

end MoveShardCost

/-! ## InitRebalanceState -/

section InitRebalanceState

variable {placement : ShardPlacement}

/-- A placement step keeps every listed shard listed. -/
theorem listsPlacement_addPlacement {p : ShardPlacement}
    (hstep : addPlacement state placement = some state') (hp : ListsPlacement state.fillStates p) :
    ListsPlacement state'.fillStates p := by
  obtain ⟨-, rfl⟩ := addPlacement_eq_some hstep
  obtain ⟨f, hf, hfn, sc, hsc, hscid⟩ := hp
  obtain ⟨f', hf', hf'n, hsub, -⟩ := exists_updateFillState_addShardCost placement.nodeId
    (state.functions.shardCostOf placement.shardId) hf
  exact ⟨f', hf', hf'n.trans hfn, sc, hsub sc hsc, hscid⟩

/-- A placement step lists the placement at its node. -/
theorem listsPlacement_addPlacement_self (hstep : addPlacement state placement = some state') :
    ListsPlacement state'.fillStates placement := by
  obtain ⟨⟨f, hf, hfn⟩, rfl⟩ := addPlacement_eq_some hstep
  obtain ⟨f', hf', hf'n, -, hadd⟩ := exists_updateFillState_addShardCost placement.nodeId
    (state.functions.shardCostOf placement.shardId) hf
  exact ⟨f', hf', hf'n.trans hfn, _, hadd hfn, rfl⟩

theorem costsSorted_addPlacement (hstep : addPlacement state placement = some state')
    (h : ∀ f ∈ state.fillStates, CostsSorted f) : ∀ f ∈ state'.fillStates, CostsSorted f := by
  obtain ⟨-, rfl⟩ := addPlacement_eq_some hstep
  intro f' hf'
  obtain ⟨f, hf, rfl⟩ := mem_updateFillState.mp hf'
  split_ifs
  · exact costsSorted_addShardCost _ f
  · exact h f hf

/-- The run lemma of the placement loop: every placement it visits ends up listed. -/
theorem listsPlacement_foldlM_addPlacement :
    ∀ {placements : List ShardPlacement} {state state' : RebalanceState},
      placements.foldlM addPlacement state = some state' →
        ∀ p ∈ placements, ListsPlacement state'.fillStates p
  | [], _, _, _, _, hp => absurd hp List.not_mem_nil
  | placement :: rest, state, state', hrun, p, hp => by
      rw [List.foldlM_cons] at hrun
      cases hstep : addPlacement state placement with
      | none =>
          rw [hstep] at hrun
          cases hrun
      | some state₁ =>
          rw [hstep] at hrun
          rcases List.mem_cons.mp hp with rfl | hp
          · -- listed by its own step, and kept listed by every later one
            exact EventRun.foldlM_invariant (fun s => ListsPlacement s.fillStates p)
              (listsPlacement_addPlacement_self hstep)
              (fun _ _ _ hs hstep' => listsPlacement_addPlacement hstep' hs) hrun
          · exact listsPlacement_foldlM_addPlacement hrun p hp

/-- `InitRebalanceState` establishes the invariant. -/
theorem stateInvariant_initRebalanceState {workerNodeList : List Nat}
    {shardPlacementList : List ShardPlacement} {functions : RebalancePlanFunctions}
    (hworkers : workerNodeList.Nodup)
    (h : initRebalanceState workerNodeList shardPlacementList functions = some state) :
    StateInvariant state := by
  obtain ⟨hconsistent, -, -, hhash, -⟩ := initRebalanceState_spec hworkers h
  unfold initRebalanceState at h
  dsimp only at h
  refine ⟨hconsistent, ?_, ?_⟩
  · rw [hhash]
    exact listsPlacement_foldlM_addPlacement h
  · refine EventRun.foldlM_invariant (fun s => ∀ f ∈ s.fillStates, CostsSorted f) ?_
      (fun _ _ _ hs hstep => costsSorted_addPlacement hstep hs) h
    -- the workers start with empty lists
    intro f hf
    obtain ⟨w, -, rfl⟩ := List.mem_map.mp hf
    exact List.Pairwise.nil

end InitRebalanceState

/-! ## What CheckRebalanceStateInvariants asserts -/

/-- The assertions of `CheckRebalanceStateInvariants`, with exact totals. A node's
utilization is computed from its total and capacity in the model, so the assertion that
the cached one is up to date holds by construction. -/
structure CheckedInvariant (state : RebalanceState) : Prop where
  /-- each node of `fillStateListAsc` is fuller than the ones before it, or as full with
  at most their capacity -/
  asc_sorted : state.fillStateListAsc.Pairwise fun prev fillState =>
    prev.utilization < fillState.utilization ∨
      prev.utilization = fillState.utilization ∧ fillState.capacity ≤ prev.capacity
  desc_reverse : state.fillStateListDesc = state.fillStateListAsc.reverse
  costs_desc : ∀ f ∈ state.fillStates,
    f.shardCostListDesc.Pairwise fun prev shardCost => shardCost.cost ≤ prev.cost
  totalCost_eq : ∀ f ∈ state.fillStates,
    f.totalCost = (f.shardCostListDesc.map ShardCost.cost).sum
  placed_iff : ∀ shardId node, (⟨shardId, node⟩ : ShardPlacement) ∈ state.placementsHash ↔
    ∃ f ∈ state.fillStates, f.node = node ∧
      ∃ shardCost ∈ f.shardCostListDesc, shardCost.shardId = shardId

theorem utilization_lt_or_of_fillStateAscKey_le {a b : NodeFillState}
    (h : fillStateAscKey a ≤ fillStateAscKey b) :
    a.utilization < b.utilization ∨
      a.utilization = b.utilization ∧ b.capacity ≤ a.capacity := by
  simp only [fillStateAscKey, Prod.Lex.toLex_le_toLex, toDual_lt_toDual, toDual_inj] at h
  rcases h with h | ⟨hu, h | ⟨hc, -⟩⟩
  · exact .inl h
  · exact .inr ⟨hu, h.le⟩
  · exact .inr ⟨hu, hc.ge⟩

theorem cost_le_of_shardCostDescKey_le {a b : ShardCost}
    (h : shardCostDescKey a ≤ shardCostDescKey b) : b.cost ≤ a.cost := by
  simp only [shardCostDescKey, Prod.Lex.toLex_le_toLex, toDual_lt_toDual, toDual_inj] at h
  rcases h with h | ⟨h, -⟩
  · exact h.le
  · exact h.ge

/-- The invariant gives every assertion of `CheckRebalanceStateInvariants`. -/
theorem StateInvariant.checkedInvariant (h : StateInvariant state) : CheckedInvariant state where
  asc_sorted := (fillStateListAsc_pairwise state).imp utilization_lt_or_of_fillStateAscKey_le
  desc_reverse := fillStateListDesc_eq_reverse h.consistent.nodes_nodup
  costs_desc f hf := (h.costs_sorted f hf).imp cost_le_of_shardCostDescKey_le
  totalCost_eq f hf := (h.consistent.fillState f hf).totalCost_eq
  placed_iff shardId node := by
    constructor
    · exact h.listed ⟨shardId, node⟩
    · rintro ⟨f, hf, rfl, shardCost, hmem, rfl⟩
      exact (h.consistent.fillState f hf).placed shardCost hmem

/-! ## Every run of moves -/

/-- The states that `InitRebalanceState` and a sequence of `MoveShardCost` calls reach,
each call moving a shard its source lists to another node of the state that does not
hold it, as both phases of the planner do. -/
inductive MoveReachable : RebalanceState → Prop
  | init {workerNodeList : List Nat} {shardPlacementList : List ShardPlacement}
      {functions : RebalancePlanFunctions} {state : RebalanceState} :
      workerNodeList.Nodup →
      initRebalanceState workerNodeList shardPlacementList functions = some state →
      MoveReachable state
  | move {state : RebalanceState} {sourceNode targetNode : Nat} {shardCost : ShardCost} :
      MoveReachable state →
      (∃ f ∈ state.fillStates, f.node = sourceNode ∧ shardCost ∈ f.shardCostListDesc) →
      (∃ g ∈ state.fillStates, g.node = targetNode) →
      ⟨shardCost.shardId, targetNode⟩ ∉ state.placementsHash →
      MoveReachable (moveShardCost sourceNode targetNode shardCost state)

/-- The run lemma: the invariant holds of every state that moves reach. -/
theorem MoveReachable.stateInvariant (h : MoveReachable state) : StateInvariant state := by
  induction h with
  | init hworkers hinit => exact stateInvariant_initRebalanceState hworkers hinit
  | move _ hsource htargetNode htarget ih => exact ih.moveShardCost hsource htargetNode htarget

/-- With exact costs, every assertion of `CheckRebalanceStateInvariants` holds after
`InitRebalanceState` and after every move of a shard the source lists to a node of the
state that does not hold it. -/
theorem checkedInvariant_of_moveReachable (h : MoveReachable state) : CheckedInvariant state :=
  h.stateInvariant.checkedInvariant

/-- Shards 1 and 2 on node 1 of two workers, and shard 1 moved to node 2. -/
theorem checkedInvariant_of_moveReachable_two_nodes :
    CheckedInvariant (moveShardCost 1 2 ⟨1, 1⟩
      ((initRebalanceState [1, 2] [⟨1, 1⟩, ⟨2, 1⟩]
        ⟨fun _ _ => true, fun _ => 1, fun _ => 1⟩).get (by decide +kernel))) :=
  checkedInvariant_of_moveReachable
    (.move (.init (by decide) (Option.some_get _).symm) (by decide +kernel) (by decide +kernel)
      (by decide +kernel))

end Citus.Rebalancer
