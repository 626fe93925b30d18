import Citus.Rebalancer.Phases
import Citus.Lib.FiniteDescent
import Mathlib

/-!
# The greedy balancing loop stops

Give each node the key (utilization, capacity, total cost), compared
lexicographically. Every move `FindAndMoveShardCost` makes replaces the keys of
the source and the target by two keys that both lie below the source's old key:
the source loses a shard of positive cost, and the target ends below the source's
old utilization, or exactly at it with less capacity than the source. The last
case is the move that only raises the lower of the two nodes; it keeps the highest
utilization, so the capacity has to be part of the key. The multiset of keys
therefore falls in the Dershowitz–Manna order.

That order is not well-founded on multisets of rationals, but the keys a run can
reach lie in a finite set: the nodes and their capacities stay, and each total is
the sum of some of the shard costs, which the moves only redistribute. A strict
order on a finite set admits no infinite descent (`FiniteDescent.acc_of_finite_descent`),
so the loop finds no move after finitely many, however large `maxShardMoves` is.
-/

namespace Citus.Rebalancer

open FiniteDescent

/-! ## Node keys -/

/-- The key of a node: utilization, then capacity, then total cost. -/
def nodeKey (capacity totalCost : ℚ) : WithTop ℚ ×ₗ (ℚ ×ₗ ℚ) :=
  toLex (calculateUtilization totalCost capacity, toLex (capacity, totalCost))

theorem calculateUtilization_of_pos {totalCost capacity : ℚ} (h : 0 < capacity) :
    calculateUtilization totalCost capacity = ((totalCost / capacity : ℚ) : WithTop ℚ) :=
  if_neg (not_le.mpr h)

theorem calculateUtilization_of_nonpos {totalCost capacity : ℚ} (h : capacity ≤ 0) :
    calculateUtilization totalCost capacity = ⊤ :=
  if_pos h

/-- The source's key drops: its utilization falls, or, without capacity, its total. -/
theorem nodeKey_sub_lt {capacity totalCost cost : ℚ} (hcost : 0 < cost) :
    nodeKey capacity (totalCost - cost) < nodeKey capacity totalCost := by
  unfold nodeKey
  rw [Prod.Lex.toLex_lt_toLex]
  by_cases hcapacity : capacity ≤ 0
  · right
    refine ⟨by simp only [calculateUtilization_of_nonpos hcapacity], ?_⟩
    exact Prod.Lex.toLex_lt_toLex.mpr (Or.inr ⟨rfl, by linarith⟩)
  · left
    have hpos : 0 < capacity := not_le.mp hcapacity
    show calculateUtilization (totalCost - cost) capacity < calculateUtilization totalCost capacity
    rw [calculateUtilization_of_pos hpos, calculateUtilization_of_pos hpos, WithTop.coe_lt_coe]
    exact (div_lt_div_iff_of_pos_right hpos).mpr (by linarith)

/-- The target's new key lies below the source's old key, for every move the shard
loop accepts on a target below a finite upper bound. -/
theorem nodeKey_add_lt {sourceCapacity sourceTotal targetCapacity targetTotal cost upper : ℚ}
    (hcost : 0 < cost) (htarget : calculateUtilization targetTotal targetCapacity < upper)
    (hmove : calculateUtilization (targetTotal + cost) targetCapacity ≤
        calculateUtilization (sourceTotal - cost) sourceCapacity ∨
      calculateUtilization (targetTotal + cost) targetCapacity ≤
          calculateUtilization sourceTotal sourceCapacity ∧
        ¬ (calculateUtilization (targetTotal + cost) targetCapacity =
            calculateUtilization sourceTotal sourceCapacity ∧
          calculateUtilization (sourceTotal - cost) sourceCapacity ≤
            calculateUtilization targetTotal targetCapacity)) :
    nodeKey targetCapacity (targetTotal + cost) < nodeKey sourceCapacity sourceTotal := by
  -- below a finite bound, the target has capacity
  have htpos : 0 < targetCapacity := by
    by_contra h
    rw [calculateUtilization_of_nonpos (not_lt.mp h)] at htarget
    exact not_top_lt htarget
  unfold nodeKey
  rw [Prod.Lex.toLex_lt_toLex]
  simp only [calculateUtilization_of_pos htpos] at hmove ⊢
  by_cases hscapacity : sourceCapacity ≤ 0
  · left
    show ((targetTotal + cost) / targetCapacity : ℚ) < calculateUtilization sourceTotal sourceCapacity
    rw [calculateUtilization_of_nonpos hscapacity]
    exact WithTop.coe_lt_top _
  have hspos : 0 < sourceCapacity := not_le.mp hscapacity
  simp only [calculateUtilization_of_pos hspos, WithTop.coe_le_coe, WithTop.coe_inj] at hmove ⊢
  have hdrop : (sourceTotal - cost) / sourceCapacity < sourceTotal / sourceCapacity :=
    (div_lt_div_iff_of_pos_right hspos).mpr (by linarith)
  rcases hmove with hle | ⟨hle, hraise⟩
  · exact Or.inl (WithTop.coe_lt_coe.mpr (lt_of_le_of_lt hle hdrop))
  rcases lt_or_eq_of_le hle with hlt | heq
  · exact Or.inl (WithTop.coe_lt_coe.mpr hlt)
  -- the target ends exactly at the source's old utilization: it has less capacity
  right
  refine ⟨heq, Prod.Lex.toLex_lt_toLex.mpr (Or.inl ?_)⟩
  have hbelow : targetTotal / targetCapacity < (sourceTotal - cost) / sourceCapacity :=
    lt_of_not_ge fun h => hraise ⟨heq, h⟩
  have htarget' : targetTotal / targetCapacity =
      sourceTotal / sourceCapacity - cost / targetCapacity := by
    rw [← heq, add_div]
    ring
  have hless : cost / sourceCapacity < cost / targetCapacity := by
    rw [htarget', sub_div] at hbelow
    linarith
  exact (div_lt_div_iff_of_pos_left hcost hspos htpos).mp hless

/-! ## What a move changes -/

variable {state : RebalanceState}

theorem coe_cons_cons {β : Type} (a b : β) (l : List β) :
    ((a :: b :: l : List β) : Multiset β) = (l : Multiset β) + {a, b} := by
  rw [← Multiset.cons_coe, ← Multiset.cons_coe, Multiset.insert_eq_cons, Multiset.add_cons,
    Multiset.add_comm, Multiset.singleton_add]

/-- A move replaces the source and the target and leaves the other fill states: as
multisets, whatever is measured of each fill state. -/
theorem map_moveShardCost_fillStates {β : Type} (g : NodeFillState → β) (hc : Consistent state)
    {source target : NodeFillState} (hsource : source ∈ state.fillStates)
    (htarget : target ∈ state.fillStates) (hne : source.node ≠ target.node)
    (shardCost : ShardCost) :
    ∃ X : Multiset β, (state.fillStates.map g : Multiset β) = X + {g source, g target} ∧
      ((moveShardCost source.node target.node shardCost state).fillStates.map g : Multiset β) =
        X + {g (removeShardCost shardCost source), g (addShardCost shardCost target)} := by
  have hnodup : state.fillStates.Nodup := hc.nodes_nodup.of_map _
  have htarget' : target ∈ state.fillStates.erase source :=
    (List.mem_erase_of_ne fun h => hne (congrArg NodeFillState.node h).symm).mpr htarget
  have hperm : state.fillStates.Perm
      (source :: target :: (state.fillStates.erase source).erase target) :=
    (List.perm_cons_erase hsource).trans ((List.perm_cons_erase htarget').cons source)
  have hnodup' := hperm.nodup_iff.mp hnodup
  -- the other fill states are on other nodes, so the move leaves them alone
  have hrest : ∀ f ∈ (state.fillStates.erase source).erase target,
      movedFillState source.node target.node shardCost f = f := by
    intro f hf
    have hmem : f ∈ state.fillStates :=
      hperm.mem_iff.mpr (List.mem_cons_of_mem _ (List.mem_cons_of_mem _ hf))
    have hfs : f ≠ source := fun h =>
      (List.nodup_cons.mp hnodup').1 (List.mem_cons_of_mem target (h ▸ hf))
    have hft : f ≠ target := fun h => (List.nodup_cons.mp (List.nodup_cons.mp hnodup').2).1 (h ▸ hf)
    have hns : f.node ≠ source.node := fun h => hfs (hc.eq_of_node_eq hmem hsource h)
    have hnt : f.node ≠ target.node := fun h => hft (hc.eq_of_node_eq hmem htarget h)
    simp [movedFillState, hns, hnt]
  refine ⟨(((state.fillStates.erase source).erase target).map g : Multiset β), ?_, ?_⟩
  · rw [Multiset.coe_eq_coe.mpr (hperm.map g), List.map_cons, List.map_cons, coe_cons_cons]
  · rw [moveShardCost_fillStates hne, List.map_map, Multiset.coe_eq_coe.mpr (hperm.map _),
      List.map_cons, List.map_cons, coe_cons_cons, List.map_congr_left fun f hf => by
        rw [Function.comp_apply, hrest f hf]]
    simp [movedFillState, hne.symm]

/-- The costs of all shards the fill states list. -/
def listedCosts (state : RebalanceState) : Multiset ℚ :=
  (state.fillStates.map fun f => (f.shardCostListDesc.map ShardCost.cost : Multiset ℚ)).sum

/-- Moving a listed shard only redistributes the listed costs. -/
theorem listedCosts_moveShardCost (hc : Consistent state) {source target : NodeFillState}
    (hsource : source ∈ state.fillStates) (htarget : target ∈ state.fillStates)
    (hne : source.node ≠ target.node) {shardCost : ShardCost}
    (hmem : shardCost ∈ source.shardCostListDesc) :
    listedCosts (moveShardCost source.node target.node shardCost state) = listedCosts state := by
  obtain ⟨X, hbefore, hafter⟩ := map_moveShardCost_fillStates
    (fun f => (f.shardCostListDesc.map ShardCost.cost : Multiset ℚ)) hc hsource htarget hne
    shardCost
  unfold listedCosts
  rw [← Multiset.sum_coe, ← Multiset.sum_coe, hbefore, hafter]
  simp only [removeShardCost_shardCostListDesc, addShardCost_shardCostListDesc,
    Multiset.sum_add, Multiset.insert_eq_cons, Multiset.sum_cons, Multiset.sum_singleton]
  -- the source's costs are the moved one and the rest; the target's gain the moved one
  have hsourceCosts : (source.shardCostListDesc.map ShardCost.cost : Multiset ℚ) =
      shardCost.cost ::ₘ ((source.shardCostListDesc.erase shardCost).map ShardCost.cost : Multiset ℚ) := by
    rw [Multiset.cons_coe, ← List.map_cons]
    exact Multiset.coe_eq_coe.mpr ((List.perm_cons_erase hmem).map _)
  have htargetCosts : ((sortList (target.shardCostListDesc ++ [shardCost])
      compareShardCostDesc).map ShardCost.cost : Multiset ℚ) =
      (target.shardCostListDesc.map ShardCost.cost : Multiset ℚ) + {shardCost.cost} := by
    rw [Multiset.coe_eq_coe.mpr ((sortList_perm _ _).map _), List.map_append, ← Multiset.coe_add]
    rfl
  rw [hsourceCosts, htargetCosts, ← Multiset.singleton_add]
  abel

/-! ## The measure -/

/-- The keys of the nodes of a state. -/
def fillStateKeys (state : RebalanceState) : Multiset (WithTop ℚ ×ₗ (ℚ ×ₗ ℚ)) :=
  (state.fillStates.map fun f => nodeKey f.capacity f.totalCost : Multiset _)

/-- What stays fixed while the balancing loop runs: the strategy, the nodes'
capacities, and the costs of all shards, which moves only redistribute. -/
structure BalanceInvariant (functions : RebalancePlanFunctions) (capacities : List ℚ)
    (costs : Multiset ℚ) (state : RebalanceState) : Prop where
  consistent : Consistent state
  functions_eq : state.functions = functions
  capacities_eq : state.fillStates.map NodeFillState.capacity = capacities
  listedCosts_eq : listedCosts state = costs

/-- The keys a state with these capacities and costs can have. -/
def reachableKeys (capacities : List ℚ) (costs : Multiset ℚ) :
    Set (Multiset (WithTop ℚ ×ₗ (ℚ ×ₗ ℚ))) :=
  {M | Multiset.card M ≤ capacities.length ∧
    ∀ x ∈ M, x ∈ Set.image2 nodeKey {c | c ∈ capacities} {t | ∃ M' ≤ costs, M'.sum = t}}

theorem reachableKeys_finite (capacities : List ℚ) (costs : Multiset ℚ) :
    (reachableKeys capacities costs).Finite := by
  have htotals : {t | ∃ M' ≤ costs, M'.sum = t}.Finite := by
    refine ((costs.powerset.map Multiset.sum).toFinset.finite_toSet).subset ?_
    rintro t ⟨M', hle, rfl⟩
    simp only [Finset.mem_coe, Multiset.mem_toFinset, Multiset.mem_map, Multiset.mem_powerset]
    exact ⟨M', hle, rfl⟩
  exact finite_multisets_of_card_le ((List.finite_toSet capacities).image2 nodeKey htotals) _

variable {functions : RebalancePlanFunctions} {capacities : List ℚ} {costs : Multiset ℚ}

theorem BalanceInvariant.fillStateKeys_mem (h : BalanceInvariant functions capacities costs state) :
    fillStateKeys state ∈ reachableKeys capacities costs := by
  refine ⟨by simp [fillStateKeys, ← h.capacities_eq], ?_⟩
  intro x hx
  obtain ⟨f, hf, rfl⟩ := List.mem_map.mp (Multiset.mem_coe.mp hx)
  refine ⟨f.capacity, by rw [← h.capacities_eq]; exact List.mem_map_of_mem hf,
    f.totalCost, ⟨_, ?_, ((h.consistent.fillState f hf).totalCost_eq.trans
      (Multiset.sum_coe _).symm).symm⟩, rfl⟩
  -- the node's costs are part of all listed costs
  rw [← h.listedCosts_eq]
  exact List.single_le_sum (fun _ _ => Multiset.zero_le _) _ (List.mem_map_of_mem hf)

/-! ## One move -/

section Move

variable {utilizationLowerBound utilizationUpperBound improvementThreshold : ℚ}

/-- What a move found by `FindAndMoveShardCost` is, from a consistent state: a listed
shard of positive cost, moved between two distinct nodes, with the target below the
upper bound and the shard loop's condition met. -/
theorem findAndMoveShardCost_eq_true (hc : Consistent state)
    (hcost : ∀ shardId, 0 < state.functions.shardCost shardId)
    (h : (findAndMoveShardCost utilizationLowerBound utilizationUpperBound improvementThreshold
      state).1 = true) :
    ∃ n sourceFillState targetFillState shardCost,
      sourceFillState ∈ state.fillStates ∧ targetFillState ∈ state.fillStates ∧
      sourceFillState.node ≠ targetFillState.node ∧
      shardCost ∈ sourceFillState.shardCostListDesc ∧ 0 < shardCost.cost ∧
      calculateUtilization targetFillState.totalCost targetFillState.capacity <
        utilizationUpperBound ∧
      (calculateUtilization (targetFillState.totalCost + shardCost.cost) targetFillState.capacity ≤
          calculateUtilization (sourceFillState.totalCost - shardCost.cost)
            sourceFillState.capacity ∨
        calculateUtilization (targetFillState.totalCost + shardCost.cost) targetFillState.capacity ≤
            calculateUtilization sourceFillState.totalCost sourceFillState.capacity ∧
          ¬ (calculateUtilization (targetFillState.totalCost + shardCost.cost)
                targetFillState.capacity =
              calculateUtilization sourceFillState.totalCost sourceFillState.capacity ∧
            calculateUtilization (sourceFillState.totalCost - shardCost.cost)
                sourceFillState.capacity ≤
              calculateUtilization targetFillState.totalCost targetFillState.capacity)) ∧
      (findAndMoveShardCost utilizationLowerBound utilizationUpperBound improvementThreshold
        state).2 = moveShardCost sourceFillState.node targetFillState.node shardCost
          { state with ignoredMoves := n } := by
  rcases findAndMoveShardCost_cases utilizationLowerBound utilizationUpperBound
      improvementThreshold state with
    ⟨n, hfalse⟩ | ⟨n, sourceFillState, targetFillState, shardCost, hsource, -, htarget, hupper, -,
      hmem, hmove, htrue⟩
  · rw [hfalse] at h
    cases h
  obtain ⟨hfree, -, hcondition⟩ := shardCostVerdict_eq_move hmove
  have hplaced := (hc.fillState sourceFillState hsource).placed shardCost hmem
  have hne : sourceFillState.node ≠ targetFillState.node := fun he => hfree (he ▸ hplaced)
  have hpos : 0 < shardCost.cost := by
    rw [(hc.fillState sourceFillState hsource).shardCost_eq shardCost hmem]
    exact hcost _
  exact ⟨n, sourceFillState, targetFillState, shardCost, hsource, htarget, hne, hmem, hpos,
    hupper, hcondition, by rw [htrue]⟩

/-- The step lemma of the termination argument: a move keeps what stays fixed. -/
theorem balanceInvariant_findAndMoveShardCost
    (h : BalanceInvariant functions capacities costs state)
    (hcost : ∀ shardId, 0 < functions.shardCost shardId) :
    BalanceInvariant functions capacities costs (findAndMoveShardCost utilizationLowerBound
      utilizationUpperBound improvementThreshold state).2 := by
  obtain ⟨hc', hreplays⟩ := consistent_findAndMoveShardCost utilizationLowerBound
    utilizationUpperBound improvementThreshold h.consistent
  cases hfound : (findAndMoveShardCost utilizationLowerBound utilizationUpperBound
      improvementThreshold state).1
  · rcases findAndMoveShardCost_cases utilizationLowerBound utilizationUpperBound
        improvementThreshold state with ⟨n, hfalse⟩ | ⟨_, _, _, _, -, -, -, -, -, -, -, htrue⟩
    · rw [hfalse] at hc' ⊢
      exact ⟨hc', h.functions_eq, h.capacities_eq, h.listedCosts_eq⟩
    · rw [htrue] at hfound
      cases hfound
  · obtain ⟨n, sourceFillState, targetFillState, shardCost, hsource, htarget, hne, hmem, -, -, -,
      hstate⟩ := findAndMoveShardCost_eq_true h.consistent (h.functions_eq ▸ hcost) hfound
    have hc₀ : Consistent { state with ignoredMoves := n } := h.consistent.of_eq rfl rfl rfl
    refine ⟨hc', hreplays.1.trans h.functions_eq, ?_, ?_⟩
    · rw [hstate, moveShardCost_fillStates hne, List.map_map]
      rw [← h.capacities_eq]
      exact List.map_congr_left fun f _ => movedFillState_capacity f
    · rw [hstate, listedCosts_moveShardCost hc₀ hsource htarget hne hmem]
      exact h.listedCosts_eq

/-- The descent lemma: a move lowers the nodes' keys in the Dershowitz–Manna order. -/
theorem fillStateKeys_findAndMoveShardCost (hc : Consistent state)
    (hcost : ∀ shardId, 0 < state.functions.shardCost shardId)
    (h : (findAndMoveShardCost utilizationLowerBound utilizationUpperBound improvementThreshold
      state).1 = true) :
    Multiset.IsDershowitzMannaLT
      (fillStateKeys (findAndMoveShardCost utilizationLowerBound utilizationUpperBound
        improvementThreshold state).2) (fillStateKeys state) := by
  obtain ⟨n, sourceFillState, targetFillState, shardCost, hsource, htarget, hne, -, hpos, hupper,
    hcondition, hstate⟩ := findAndMoveShardCost_eq_true hc hcost h
  have hc₀ : Consistent { state with ignoredMoves := n } := hc.of_eq rfl rfl rfl
  obtain ⟨X, hbefore, hafter⟩ := map_moveShardCost_fillStates
    (fun f => nodeKey f.capacity f.totalCost) hc₀ hsource htarget hne shardCost
  unfold fillStateKeys
  rw [hstate, hafter]
  rw [show (state.fillStates.map fun f => nodeKey f.capacity f.totalCost : Multiset _) =
    X + {nodeKey sourceFillState.capacity sourceFillState.totalCost,
      nodeKey targetFillState.capacity targetFillState.totalCost} from hbefore]
  exact isDershowitzMannaLT_replace_two X (nodeKey_sub_lt hpos)
    (nodeKey_add_lt hpos hupper hcondition)

end Move

/-! ## The loop -/

section Loop

variable (utilizationLowerBound utilizationUpperBound improvementThreshold : ℚ)

/-- One round of the balancing loop that finds a move, from a state where what stays
fixed holds. -/
def BalanceStep (functions : RebalancePlanFunctions) (capacities : List ℚ) (costs : Multiset ℚ)
    (state' state : RebalanceState) : Prop :=
  BalanceInvariant functions capacities costs state ∧
    (findAndMoveShardCost utilizationLowerBound utilizationUpperBound improvementThreshold
      state).1 = true ∧
    state' = (findAndMoveShardCost utilizationLowerBound utilizationUpperBound
      improvementThreshold state).2

/-- No infinite run of moves starts from a state where what stays fixed holds. -/
theorem acc_balanceStep (hcost : ∀ shardId, 0 < functions.shardCost shardId)
    (h : BalanceInvariant functions capacities costs state) :
    Acc (BalanceStep utilizationLowerBound utilizationUpperBound improvementThreshold functions
      capacities costs) state :=
  acc_of_finite_descent (reachableKeys_finite capacities costs)
    (fun state state' => (findAndMoveShardCost utilizationLowerBound
      utilizationUpperBound improvementThreshold state).1 = true ∧
      state' = (findAndMoveShardCost utilizationLowerBound utilizationUpperBound
        improvementThreshold state).2) fillStateKeys
    (fun _ hinv => hinv.fillStateKeys_mem)
    (fun _ _ hinv hstep => hstep.2 ▸ balanceInvariant_findAndMoveShardCost hinv hcost)
    (fun _ _ hinv hstep => hstep.2 ▸ fillStateKeys_findAndMoveShardCost hinv.consistent
      (hinv.functions_eq ▸ hcost) hstep.1)
    state h

/-- The run lemma: from an accessible state, the loop stops with no move found once
the budget leaves room for the moves still to come. -/
theorem balanceLoop_stops_of_acc (hcost : ∀ shardId, 0 < functions.shardCost shardId)
    {state : RebalanceState}
    (hacc : Acc (BalanceStep utilizationLowerBound utilizationUpperBound improvementThreshold
      functions capacities costs) state)
    (h : BalanceInvariant functions capacities costs state) :
    ∃ N : Nat, ∀ (maxShardMoves : Int) (fuel : Nat),
      (state.placementUpdateList.length + N : Int) ≤ maxShardMoves → N ≤ fuel →
      (balanceLoop utilizationLowerBound utilizationUpperBound improvementThreshold maxShardMoves
        fuel state true).2 = false := by
  induction hacc with
  | intro state _ ih =>
      have hlength := findAndMoveShardCost_placementUpdateList_length utilizationLowerBound
        utilizationUpperBound improvementThreshold state
      cases hfound : (findAndMoveShardCost utilizationLowerBound utilizationUpperBound
          improvementThreshold state).1
      · -- no move: the next round ends the loop
        refine ⟨1, fun maxShardMoves fuel hmax hfuel => ?_⟩
        obtain ⟨fuel, rfl⟩ : ∃ fuel', fuel = fuel' + 1 := ⟨fuel - 1, by omega⟩
        have hroom : (state.placementUpdateList.length : Int) < maxShardMoves := by omega
        simp only [balanceLoop]
        rw [if_pos ⟨hroom, trivial⟩, hfound, balanceLoop_false]
      · -- a move: the loop goes on from the next state, which is accessible
        obtain ⟨N, hN⟩ := ih _ ⟨h, hfound, rfl⟩ (balanceInvariant_findAndMoveShardCost h hcost)
        rw [hfound, if_pos rfl] at hlength
        refine ⟨N + 1, fun maxShardMoves fuel hmax hfuel => ?_⟩
        obtain ⟨fuel, rfl⟩ : ∃ fuel', fuel = fuel' + 1 := ⟨fuel - 1, by omega⟩
        have hroom : (state.placementUpdateList.length : Int) < maxShardMoves := by omega
        simp only [balanceLoop]
        rw [if_pos ⟨hroom, trivial⟩, hfound]
        exact hN maxShardMoves fuel (by omega) (by omega)

end Loop

/-- With exact rationals and positive shard costs, the balancing loop of
`RebalancePlacementUpdates` run on a state built by `InitRebalanceState` and drained
of disallowed placements ends because `FindAndMoveShardCost` finds no move, for every
`maxShardMoves` large enough: no run of improving moves goes on forever. -/
theorem balanceLoop_terminates {workerNodeList : List Nat} (hworkers : workerNodeList.Nodup)
    {shardPlacementList : List ShardPlacement} {functions : RebalancePlanFunctions}
    (hcost : ∀ shardId, 0 < functions.shardCost shardId) {state : RebalanceState}
    (hinit : initRebalanceState workerNodeList shardPlacementList functions = some state)
    (drainUpdateList balanceUpdateList : List PlacementUpdateEvent)
    (utilizationLowerBound utilizationUpperBound improvementThreshold : ℚ) :
    ∃ N : Nat, ∀ maxShardMoves : Int, (balanceUpdateList.length + N : Int) ≤ maxShardMoves →
      (balanceLoop utilizationLowerBound utilizationUpperBound improvementThreshold maxShardMoves
        (maxShardMoves.toNat + 1)
        { moveShardsAwayFromDisallowedNodes { state with placementUpdateList := drainUpdateList }
          with placementUpdateList := balanceUpdateList } true).2 = false := by
  obtain ⟨hc, hp, hfunctions, -, -⟩ := initRebalanceState_spec hworkers hinit
  have hc₀ : Consistent { state with placementUpdateList := drainUpdateList } :=
    hc.of_eq rfl rfl rfl
  have hp₀ : DrainPending { state with placementUpdateList := drainUpdateList }
      state.disallowedPlacementList := hp.of_fillStates rfl
  obtain ⟨hcd, hrd⟩ := consistent_moveShardsAwayFromDisallowedNodes hc₀ hp₀
  set balancing := { moveShardsAwayFromDisallowedNodes
    { state with placementUpdateList := drainUpdateList } with placementUpdateList :=
      balanceUpdateList }
  have hinv : BalanceInvariant functions (balancing.fillStates.map NodeFillState.capacity)
      (listedCosts balancing) balancing :=
    ⟨hcd.of_eq rfl rfl rfl, hrd.1.trans hfunctions, rfl, rfl⟩
  obtain ⟨N, hN⟩ := balanceLoop_stops_of_acc utilizationLowerBound utilizationUpperBound
    improvementThreshold hcost (acc_balanceStep utilizationLowerBound utilizationUpperBound
      improvementThreshold hcost hinv) hinv
  refine ⟨N, fun maxShardMoves hmax => hN maxShardMoves _ hmax ?_⟩
  have htoNat : ((maxShardMoves.toNat : Nat) : Int) = maxShardMoves :=
    Int.toNat_of_nonneg (by omega)
  omega

theorem initRebalanceState_two_nodes_isSome :
    (initRebalanceState [1, 2] [⟨1, 1⟩, ⟨2, 1⟩] ⟨fun _ _ => true, fun _ => 1, fun _ => 1⟩).isSome := by
  decide +kernel

/-- Two shards of cost 1 on node 1 of two nodes of capacity 1. -/
theorem balanceLoop_terminates_two_nodes :
    ∃ N : Nat, ∀ maxShardMoves : Int, (([] : List PlacementUpdateEvent).length + N : Int) ≤ maxShardMoves →
      (balanceLoop 1 1 0 maxShardMoves (maxShardMoves.toNat + 1)
        { moveShardsAwayFromDisallowedNodes
            { (initRebalanceState [1, 2] [⟨1, 1⟩, ⟨2, 1⟩]
                ⟨fun _ _ => true, fun _ => 1, fun _ => 1⟩).get initRebalanceState_two_nodes_isSome
              with placementUpdateList := [] }
          with placementUpdateList := [] } true).2 = false :=
  balanceLoop_terminates (by decide) (fun _ => one_pos) (Option.some_get _).symm [] [] 1 1 0

end Citus.Rebalancer
