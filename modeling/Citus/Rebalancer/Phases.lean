import Citus.Rebalancer.Invariant

/-!
# The phases of the planner keep the invariant

`InitRebalanceState` builds a consistent state whose fill states list exactly the
placements of the hash. The drain phase moves each disallowed placement to the
emptiest allowed node that does not hold the shard, and the balance phase moves a
listed shard of a node above the lower bound to a node below the upper bound that
does not hold it. Each of these moves is one that `consistent_replays_moveShardCost`
covers, so both phases keep the invariant and record only executable moves.

The loops of `FindAndMoveShardCost` are summarised once, by
`findAndMoveShardCost_cases`: either no move is made and only the count of ignored
moves changes, or one move is made, with everything the three loops checked on
the way. The balance and termination arguments use that summary and never unfold
the loops again.
-/

namespace Citus.Rebalancer

variable {state state' : RebalanceState}

/-! ## Disallowed placements still to drain -/

/-- The placement a disallowed placement names. -/
def DisallowedPlacement.placement (disallowedPlacement : DisallowedPlacement) : ShardPlacement :=
  ⟨disallowedPlacement.shardCost.shardId, disallowedPlacement.node⟩

/-- The disallowed placements still to drain name distinct placements, and each is
a shard its node's fill state still lists. -/
structure DrainPending (state : RebalanceState) (pending : List DisallowedPlacement) : Prop where
  nodup : (pending.map DisallowedPlacement.placement).Nodup
  held : ∀ dp ∈ pending, ∃ f ∈ state.fillStates,
    f.node = dp.node ∧ dp.shardCost ∈ f.shardCostListDesc

namespace DrainPending

variable {pending pending' : List DisallowedPlacement} {dp : DisallowedPlacement}

theorem perm (h : DrainPending state pending) (hperm : pending'.Perm pending) :
    DrainPending state pending' :=
  ⟨(hperm.map _).nodup_iff.mpr h.nodup, fun dp hdp => h.held dp (hperm.mem_iff.mp hdp)⟩

theorem tail (h : DrainPending state (dp :: pending)) : DrainPending state pending :=
  ⟨(List.nodup_cons.mp h.nodup).2, fun dp' hdp' => h.held dp' (List.mem_cons_of_mem _ hdp')⟩

theorem of_fillStates (h : DrainPending state pending)
    (hfillStates : state'.fillStates = state.fillStates) : DrainPending state' pending :=
  ⟨h.nodup, hfillStates ▸ h.held⟩

/-- Moving the first pending placement away leaves the others listed. -/
theorem moveShardCost (hc : Consistent state) (h : DrainPending state (dp :: pending))
    {targetNode : Nat} (htarget : ⟨dp.shardCost.shardId, targetNode⟩ ∉ state.placementsHash) :
    DrainPending (Rebalancer.moveShardCost dp.node targetNode dp.shardCost state) pending := by
  obtain ⟨fs, hfs, hfsn, hmem⟩ := h.held dp List.mem_cons_self
  have hne : dp.node ≠ targetNode := by
    intro he
    have hplaced := (hc.fillState fs hfs).placed _ hmem
    rw [hfsn, he] at hplaced
    exact htarget hplaced
  have hfresh : dp.placement ∉ pending.map DisallowedPlacement.placement :=
    (List.nodup_cons.mp (List.map_cons ▸ h.nodup)).1
  refine ⟨h.tail.nodup, fun dp' hdp' => ?_⟩
  obtain ⟨f, hf, hfn, hmem'⟩ := h.held dp' (List.mem_cons_of_mem _ hdp')
  refine ⟨movedFillState dp.node targetNode dp.shardCost f, ?_, by rw [movedFillState_node, hfn],
    ?_⟩
  · rw [moveShardCost_fillStates hne]
    exact List.mem_map_of_mem hf
  unfold movedFillState
  split_ifs with hsrc htgt
  · -- the drained placement's node: the other pending shard there is another shard
    have hsc : dp'.shardCost ≠ dp.shardCost := by
      intro he
      apply hfresh
      have : dp'.placement = dp.placement := by
        simp only [DisallowedPlacement.placement, he, ← hfn, hsrc]
      exact this ▸ List.mem_map_of_mem hdp'
    exact (List.mem_erase_of_ne hsc).mpr hmem'
  · simp [hmem']
  · exact hmem'

end DrainPending

/-! ## InitRebalanceState -/

theorem findFillStateForPlacement_eq_some {placement : ShardPlacement} {fillState : NodeFillState}
    (h : findFillStateForPlacement state placement = some fillState) :
    fillState ∈ state.fillStates ∧ fillState.node = placement.nodeId := by
  unfold findFillStateForPlacement at h
  exact ⟨List.mem_of_find?_eq_some h, by simpa using List.find?_some h⟩

/-- One iteration of the placement loop adds the placement's shard to the fill state
of its node, and records it when the node may not hold it. -/
theorem addPlacement_eq_some {placement : ShardPlacement}
    (h : addPlacement state placement = some state') :
    (∃ f ∈ state.fillStates, f.node = placement.nodeId) ∧
      state' = { state with
        fillStates := updateFillState state.fillStates placement.nodeId
          (addShardCost (state.functions.shardCostOf placement.shardId))
        totalCost := state.totalCost + (state.functions.shardCostOf placement.shardId).cost
        disallowedPlacementList :=
          if !state.functions.shardAllowedOnNode placement.shardId placement.nodeId then
            state.disallowedPlacementList ++
              [⟨state.functions.shardCostOf placement.shardId, placement.nodeId⟩]
          else state.disallowedPlacementList } := by
  unfold addPlacement at h
  cases hfind : findFillStateForPlacement state placement with
  | none =>
      rw [hfind] at h
      cases h
  | some fillState =>
      obtain ⟨hmem, hnode⟩ := findFillStateForPlacement_eq_some hfind
      rw [hfind, Option.some.injEq] at h
      rw [← h, hnode]
      exact ⟨⟨fillState, hmem, hnode⟩, rfl⟩

/-- A fill state keeps the shards it lists when a shard is added to some node. -/
theorem exists_updateFillState_addShardCost {fillStates : List NodeFillState} (node : Nat)
    (shardCost : ShardCost) {f : NodeFillState} (hf : f ∈ fillStates) :
    ∃ f' ∈ updateFillState fillStates node (addShardCost shardCost), f'.node = f.node ∧
      (∀ sc ∈ f.shardCostListDesc, sc ∈ f'.shardCostListDesc) ∧
      (f.node = node → shardCost ∈ f'.shardCostListDesc) := by
  refine ⟨if f.node = node then addShardCost shardCost f else f,
    mem_updateFillState.mpr ⟨f, hf, rfl⟩, ?_, ?_, ?_⟩ <;> split_ifs <;> simp_all

/-- What the placement loop of `InitRebalanceState` keeps, `done` being the
placements it has visited. -/
structure InitProgress (functions : RebalancePlanFunctions) (workerNodeList : List Nat)
    (placementsHash done : List ShardPlacement) (state : RebalanceState) : Prop where
  functions_eq : state.functions = functions
  placementsHash_eq : state.placementsHash = placementsHash
  placementUpdateList_eq : state.placementUpdateList = []
  nodes_eq : state.fillStates.map NodeFillState.node = workerNodeList
  fillState : ∀ f ∈ state.fillStates, FillStateConsistent functions done f
  pending : DrainPending state state.disallowedPlacementList
  disallowed_done : ∀ dp ∈ state.disallowedPlacementList, dp.placement ∈ done

variable {functions : RebalancePlanFunctions} {workerNodeList : List Nat}
  {placementsHash done : List ShardPlacement}

/-- The empty fill states of the workers, before any placement is visited. -/
theorem InitProgress.start (hfunctions : state.functions = functions)
    (hhash : state.placementsHash = placementsHash) (hlist : state.placementUpdateList = [])
    (hfillStates : state.fillStates = workerNodeList.map (emptyFillState functions))
    (hdisallowed : state.disallowedPlacementList = []) :
    InitProgress functions workerNodeList placementsHash [] state := by
  refine ⟨hfunctions, hhash, hlist, ?_, ?_, ?_, by simp [hdisallowed]⟩
  · rw [hfillStates, List.map_map]
    exact List.map_id workerNodeList
  · intro f hf
    rw [hfillStates] at hf
    obtain ⟨w, -, rfl⟩ := List.mem_map.mp hf
    exact ⟨by simp [emptyFillState], by simp [emptyFillState], by simp [emptyFillState],
      by simp [emptyFillState]⟩
  · rw [hdisallowed]
    exact ⟨List.nodup_nil, by simp⟩

/-- The step lemma of the placement loop: visiting a new placement keeps the
progress invariant. -/
theorem InitProgress.addPlacement {placement : ShardPlacement}
    (h : InitProgress functions workerNodeList placementsHash done state)
    (hfresh : placement ∉ done) (hstep : Rebalancer.addPlacement state placement = some state') :
    InitProgress functions workerNodeList placementsHash (done ++ [placement]) state' := by
  obtain ⟨⟨f0, hf0, hf0n⟩, rfl⟩ := addPlacement_eq_some hstep
  have hkeep : ∀ x ∈ done, x ∈ done ++ [placement] := fun x hx => List.mem_append_left _ hx
  have hnew : placement ∈ done ++ [placement] := List.mem_append_right _ (List.mem_singleton_self _)
  refine ⟨h.functions_eq, h.placementsHash_eq, h.placementUpdateList_eq, ?_, ?_, ?_, ?_⟩
  · show (updateFillState state.fillStates placement.nodeId _).map NodeFillState.node = _
    rw [updateFillState_nodes (addShardCost_node _)]
    exact h.nodes_eq
  · intro f' hf'
    obtain ⟨f, hf, rfl⟩ := mem_updateFillState.mp hf'
    split_ifs with hfn
    · refine (h.fillState f hf).addShardCost (by rw [h.functions_eq]; rfl) ?_
        (fun x hx _ => hkeep x hx) (by rw [hfn]; exact hnew)
      rw [hfn]
      exact hfresh
    · exact (h.fillState f hf).mono fun x hx _ => hkeep x hx
  · -- the held shards stay listed; a newly recorded one is the shard just added
    have hheld : ∀ dp ∈ state.disallowedPlacementList, ∃ f ∈ updateFillState state.fillStates
        placement.nodeId (addShardCost (state.functions.shardCostOf placement.shardId)),
        f.node = dp.node ∧ dp.shardCost ∈ f.shardCostListDesc := by
      intro dp hdp
      obtain ⟨f, hf, hfn, hmem⟩ := h.pending.held dp hdp
      obtain ⟨f', hf', hf'n, hsub, -⟩ := exists_updateFillState_addShardCost placement.nodeId
        (state.functions.shardCostOf placement.shardId) hf
      exact ⟨f', hf', hf'n.trans hfn, hsub _ hmem⟩
    dsimp only
    split_ifs
    · refine ⟨?_, fun dp hdp => ?_⟩
      · rw [List.map_append, List.nodup_append]
        refine ⟨h.pending.nodup, List.nodup_singleton _, fun a ha b hb hab => ?_⟩
        obtain ⟨dp, hdp, rfl⟩ := List.mem_map.mp ha
        rw [List.map_singleton, List.mem_singleton] at hb
        have hsame : dp.placement = placement := hab.trans hb
        exact hfresh (hsame ▸ h.disallowed_done dp hdp)
      · rcases List.mem_append.mp hdp with hdp | hdp
        · exact hheld dp hdp
        · rw [List.mem_singleton.mp hdp]
          obtain ⟨f', hf', hf'n, -, hadd⟩ := exists_updateFillState_addShardCost
            placement.nodeId (state.functions.shardCostOf placement.shardId) hf0
          exact ⟨f', hf', hf'n.trans hf0n, hadd hf0n⟩
    · exact ⟨h.pending.nodup, hheld⟩
  · intro dp hdp
    dsimp only at hdp
    split_ifs at hdp
    · rcases List.mem_append.mp hdp with hdp | hdp
      · exact hkeep _ (h.disallowed_done dp hdp)
      · rw [List.mem_singleton.mp hdp]
        exact hnew
    · exact hkeep _ (h.disallowed_done dp hdp)

/-- The run lemma of the placement loop. -/
theorem InitProgress.foldlM : ∀ (done : List ShardPlacement) {rest : List ShardPlacement}
    {state state' : RebalanceState}, rest.foldlM Rebalancer.addPlacement state = some state' →
      (done ++ rest).Nodup → InitProgress functions workerNodeList placementsHash done state →
      InitProgress functions workerNodeList placementsHash (done ++ rest) state'
  | done, [], state, state', hrun, _, h => by
      cases hrun
      rw [List.append_nil]
      exact h
  | done, placement :: rest, state, state', hrun, hnodup, h => by
      rw [List.foldlM_cons] at hrun
      cases hstep : Rebalancer.addPlacement state placement with
      | none =>
          rw [hstep] at hrun
          cases hrun
      | some state₁ =>
          rw [hstep] at hrun
          have hfresh : placement ∉ done := fun hmem =>
            List.disjoint_of_nodup_append hnodup hmem List.mem_cons_self
          have hnodup' : (done ++ [placement] ++ rest).Nodup := by
            rw [List.append_assoc]
            exact hnodup
          have := InitProgress.foldlM (done ++ [placement]) hrun hnodup'
            (h.addPlacement hfresh hstep)
          rwa [List.append_assoc] at this

/-- `InitRebalanceState` builds a consistent state whose hash holds the given
placements, with every disallowed placement still to drain. -/
theorem initRebalanceState_spec {shardPlacementList : List ShardPlacement}
    (hworkers : workerNodeList.Nodup)
    (h : initRebalanceState workerNodeList shardPlacementList functions = some state) :
    Consistent state ∧ DrainPending state state.disallowedPlacementList ∧
      state.functions = functions ∧
      state.placementsHash = shardPlacementsListToHash shardPlacementList ∧
      state.placementUpdateList = [] := by
  unfold initRebalanceState at h
  dsimp only at h
  have hnodup : (shardPlacementsListToHash shardPlacementList).Nodup := List.nodup_dedup _
  have hdone := InitProgress.foldlM [] h (by rwa [List.nil_append])
    (InitProgress.start rfl rfl rfl rfl rfl)
  rw [List.nil_append] at hdone
  refine ⟨⟨?_, ?_, ?_⟩, hdone.pending, hdone.functions_eq, hdone.placementsHash_eq,
    hdone.placementUpdateList_eq⟩
  · rw [hdone.nodes_eq]
    exact hworkers
  · rw [hdone.placementsHash_eq]
    exact hnodup
  · rw [hdone.functions_eq, hdone.placementsHash_eq]
    exact hdone.fillState

/-! ## The drain phase -/

theorem findAllowedTargetFillState_eq_some {shardId : Nat} {target : NodeFillState}
    (h : findAllowedTargetFillState state shardId = some target) :
    target ∈ state.fillStates ∧ ⟨shardId, target.node⟩ ∉ state.placementsHash ∧
      state.functions.shardAllowedOnNode shardId target.node = true := by
  unfold findAllowedTargetFillState at h
  have hfound := List.find?_some h
  simp only [placementsHashFind, Bool.and_eq_true, Bool.not_eq_true', decide_eq_false_iff_not]
    at hfound
  exact ⟨mem_fillStateListAsc.mp (List.mem_of_find?_eq_some h), hfound.1.1, hfound.1.2⟩

/-- The step lemma of the drain phase. -/
theorem consistent_moveShardAwayFromDisallowedNode {dp : DisallowedPlacement}
    {pending : List DisallowedPlacement} (hc : Consistent state)
    (hp : DrainPending state (dp :: pending)) :
    Consistent (moveShardAwayFromDisallowedNode state dp) ∧
      DrainPending (moveShardAwayFromDisallowedNode state dp) pending ∧
      Replays state (moveShardAwayFromDisallowedNode state dp) := by
  unfold moveShardAwayFromDisallowedNode
  cases htarget : findAllowedTargetFillState state dp.shardCost.shardId with
  | none => exact ⟨hc, hp.tail, Replays.of_eq rfl rfl rfl⟩
  | some target =>
      obtain ⟨-, hfree, hallowed⟩ := findAllowedTargetFillState_eq_some htarget
      obtain ⟨f, hf, hfn, hmem⟩ := hp.held dp List.mem_cons_self
      obtain ⟨hc', hr⟩ := consistent_replays_moveShardCost hc ⟨f, hf, hfn, hmem⟩ hfree hallowed
      exact ⟨hc', hp.moveShardCost hc hfree, hr⟩

/-- The run lemma of the drain phase. -/
theorem consistent_foldl_moveShardAwayFromDisallowedNode :
    ∀ {pending : List DisallowedPlacement} {state : RebalanceState}, Consistent state →
      DrainPending state pending →
      Consistent (pending.foldl moveShardAwayFromDisallowedNode state) ∧
        Replays state (pending.foldl moveShardAwayFromDisallowedNode state)
  | [], _, hc, _ => ⟨hc, Replays.of_eq rfl rfl rfl⟩
  | _ :: _, _, hc, hp => by
      obtain ⟨hc', hp', hr⟩ := consistent_moveShardAwayFromDisallowedNode hc hp
      obtain ⟨hc'', hr'⟩ := consistent_foldl_moveShardAwayFromDisallowedNode hc' hp'
      exact ⟨hc'', hr.trans hr'⟩

theorem consistent_moveShardsAwayFromDisallowedNodes (hc : Consistent state)
    (hp : DrainPending state state.disallowedPlacementList) :
    Consistent (moveShardsAwayFromDisallowedNodes state) ∧
      Replays state (moveShardsAwayFromDisallowedNodes state) := by
  unfold moveShardsAwayFromDisallowedNodes
  dsimp only
  have hsorted := sortList_perm state.disallowedPlacementList compareDisallowedPlacementDesc
  generalize sortList state.disallowedPlacementList compareDisallowedPlacementDesc = sorted at hsorted ⊢
  have hc' : Consistent { state with disallowedPlacementList := sorted } := hc.of_eq rfl rfl rfl
  have hp' : DrainPending { state with disallowedPlacementList := sorted } sorted :=
    (hp.perm hsorted).of_fillStates rfl
  obtain ⟨hc'', hr⟩ := consistent_foldl_moveShardAwayFromDisallowedNode hc' hp'
  exact ⟨hc'', (Replays.of_eq rfl rfl rfl).trans hr⟩

/-! ## FindAndMoveShardCost -/

section FindAndMove

variable {improvementThreshold utilizationLowerBound utilizationUpperBound : ℚ}
  {sourceFillState targetFillState : NodeFillState} {shardCost : ShardCost}

/-- What a shard that is moved passed: the target does not hold it and may hold
it, and either the target stays at most as utilized as the source, or it ends at
most as utilized as the source was and the move is not one that only raises the
lower of the two. -/
theorem shardCostVerdict_eq_move
    (h : shardCostVerdict state improvementThreshold sourceFillState targetFillState shardCost =
      .move) :
    ⟨shardCost.shardId, targetFillState.node⟩ ∉ state.placementsHash ∧
      state.functions.shardAllowedOnNode shardCost.shardId targetFillState.node = true ∧
      (calculateUtilization (targetFillState.totalCost + shardCost.cost) targetFillState.capacity ≤
          calculateUtilization (sourceFillState.totalCost - shardCost.cost)
            sourceFillState.capacity ∨
        calculateUtilization (targetFillState.totalCost + shardCost.cost) targetFillState.capacity ≤
            sourceFillState.utilization ∧
          ¬ (calculateUtilization (targetFillState.totalCost + shardCost.cost)
                targetFillState.capacity = sourceFillState.utilization ∧
              calculateUtilization (sourceFillState.totalCost - shardCost.cost)
                sourceFillState.capacity ≤ targetFillState.utilization)) := by
  simp only [shardCostVerdict] at h
  by_cases hfind : placementsHashFind state.placementsHash shardCost.shardId targetFillState.node
  · rw [if_pos hfind] at h
    cases h
  rw [if_neg hfind] at h
  by_cases hdisallowed :
      (!state.functions.shardAllowedOnNode shardCost.shardId targetFillState.node) = true
  · rw [if_pos hdisallowed] at h
    cases h
  rw [if_neg hdisallowed] at h
  refine ⟨by simpa [placementsHashFind] using hfind, by simpa using hdisallowed, ?_⟩
  by_cases hle : calculateUtilization (targetFillState.totalCost + shardCost.cost)
      targetFillState.capacity ≤ calculateUtilization (sourceFillState.totalCost - shardCost.cost)
        sourceFillState.capacity
  · exact Or.inl hle
  rw [if_neg hle] at h
  by_cases hgt : calculateUtilization (targetFillState.totalCost + shardCost.cost)
      targetFillState.capacity > sourceFillState.utilization
  · rw [if_pos hgt] at h
    cases h
  rw [if_neg hgt] at h
  by_cases hraise : calculateUtilization (targetFillState.totalCost + shardCost.cost)
      targetFillState.capacity = sourceFillState.utilization ∧
    calculateUtilization (sourceFillState.totalCost - shardCost.cost) sourceFillState.capacity ≤
      targetFillState.utilization
  · rw [if_pos hraise] at h
    cases h
  exact Or.inr ⟨not_lt.mp hgt, hraise⟩

theorem shardCostLoop_eq_some : ∀ {shardCosts : List ShardCost} {shardCost : ShardCost},
    (shardCostLoop state improvementThreshold sourceFillState targetFillState shardCosts).2 =
      some shardCost →
      shardCost ∈ shardCosts ∧
        shardCostVerdict state improvementThreshold sourceFillState targetFillState shardCost =
          .move
  | [], _, h => by simp [shardCostLoop] at h
  | shardCost' :: rest, shardCost, h => by
      cases hverdict : shardCostVerdict state improvementThreshold sourceFillState
          targetFillState shardCost' with
      | move =>
          simp only [shardCostLoop, hverdict, Option.some.injEq] at h
          subst h
          exact ⟨List.mem_cons_self, hverdict⟩
      | skip =>
          simp only [shardCostLoop, hverdict] at h
          obtain ⟨hmem, hmove⟩ := shardCostLoop_eq_some h
          exact ⟨List.mem_cons_of_mem _ hmem, hmove⟩
      | ignore =>
          simp only [shardCostLoop, hverdict] at h
          obtain ⟨hmem, hmove⟩ := shardCostLoop_eq_some h
          exact ⟨List.mem_cons_of_mem _ hmem, hmove⟩

theorem targetLoop_eq_some : ∀ {targetFillStates : List NodeFillState}
    {targetFillState : NodeFillState} {shardCost : ShardCost},
    (targetLoop state utilizationLowerBound utilizationUpperBound improvementThreshold
        sourceFillState targetFillStates).2 = some (targetFillState, shardCost) →
      targetFillState ∈ targetFillStates ∧
        targetFillState.utilization < utilizationUpperBound ∧
        (targetFillState.utilization < utilizationLowerBound ∨
          (utilizationUpperBound : WithTop ℚ) < sourceFillState.utilization) ∧
        shardCost ∈ sourceFillState.shardCostListDesc ∧
        shardCostVerdict state improvementThreshold sourceFillState targetFillState shardCost =
          .move
  | [], _, _, h => by simp [targetLoop] at h
  | targetFillState' :: rest, targetFillState, shardCost, h => by
      unfold targetLoop at h
      -- both guards end the target loop with no move
      by_cases hupper : targetFillState'.utilization ≥ utilizationUpperBound
      · rw [if_pos hupper] at h
        simp at h
      rw [if_neg hupper] at h
      by_cases hdecent : targetFillState'.utilization ≥ utilizationLowerBound ∧
          sourceFillState.utilization ≤ utilizationUpperBound
      · rw [if_pos hdecent] at h
        simp at h
      rw [if_neg hdecent] at h
      rw [not_and_or, not_le, not_le] at hdecent
      cases hshard : (shardCostLoop state improvementThreshold sourceFillState targetFillState'
          sourceFillState.shardCostListDesc).2 with
      | some shardCost' =>
          simp only [hshard, Option.some.injEq, Prod.mk.injEq] at h
          obtain ⟨rfl, rfl⟩ := h
          obtain ⟨hmem, hmove⟩ := shardCostLoop_eq_some hshard
          exact ⟨List.mem_cons_self, not_le.mp hupper, hdecent, hmem, hmove⟩
      | none =>
          simp only [hshard] at h
          obtain ⟨hmem, hlt, hunbalanced, hshardMem, hmove⟩ := targetLoop_eq_some h
          exact ⟨List.mem_cons_of_mem _ hmem, hlt, hunbalanced, hshardMem, hmove⟩

theorem sourceLoop_eq_some : ∀ {sourceFillStates : List NodeFillState}
    {sourceFillState targetFillState : NodeFillState} {shardCost : ShardCost},
    (sourceLoop state utilizationLowerBound utilizationUpperBound improvementThreshold
        sourceFillStates).2 = some (sourceFillState, targetFillState, shardCost) →
      sourceFillState ∈ sourceFillStates ∧
        (utilizationLowerBound : WithTop ℚ) < sourceFillState.utilization ∧
        targetFillState ∈ state.fillStates ∧
        targetFillState.utilization < utilizationUpperBound ∧
        (targetFillState.utilization < utilizationLowerBound ∨
          (utilizationUpperBound : WithTop ℚ) < sourceFillState.utilization) ∧
        shardCost ∈ sourceFillState.shardCostListDesc ∧
        shardCostVerdict state improvementThreshold sourceFillState targetFillState shardCost =
          .move
  | [], _, _, _, h => by simp [sourceLoop] at h
  | sourceFillState' :: rest, sourceFillState, targetFillState, shardCost, h => by
      unfold sourceLoop at h
      -- a source at or below the lower bound ends the whole search
      by_cases hlower : sourceFillState'.utilization ≤ utilizationLowerBound
      · rw [if_pos hlower] at h
        simp at h
      rw [if_neg hlower] at h
      cases htarget : (targetLoop state utilizationLowerBound utilizationUpperBound
          improvementThreshold sourceFillState' state.fillStateListAsc).2 with
      | some found =>
          obtain ⟨targetFillState', shardCost'⟩ := found
          simp only [htarget, Option.some.injEq, Prod.mk.injEq] at h
          obtain ⟨rfl, rfl, rfl⟩ := h
          obtain ⟨hmem, hlt, hunbalanced, hshardMem, hmove⟩ := targetLoop_eq_some htarget
          exact ⟨List.mem_cons_self, not_le.mp hlower, mem_fillStateListAsc.mp hmem, hlt,
            hunbalanced, hshardMem, hmove⟩
      | none =>
          simp only [htarget] at h
          obtain ⟨hmem, hrest⟩ := sourceLoop_eq_some h
          exact ⟨List.mem_cons_of_mem _ hmem, hrest⟩

/-- Everything `FindAndMoveShardCost` can do: count ignored moves and stop, or
count ignored moves and make one move that its loops have checked. -/
theorem findAndMoveShardCost_cases (utilizationLowerBound utilizationUpperBound
    improvementThreshold : ℚ) (state : RebalanceState) :
    (∃ n, findAndMoveShardCost utilizationLowerBound utilizationUpperBound improvementThreshold
        state = (false, { state with ignoredMoves := n })) ∨
      ∃ n sourceFillState targetFillState shardCost,
        sourceFillState ∈ state.fillStates ∧
        (utilizationLowerBound : WithTop ℚ) < sourceFillState.utilization ∧
        targetFillState ∈ state.fillStates ∧
        targetFillState.utilization < utilizationUpperBound ∧
        (targetFillState.utilization < utilizationLowerBound ∨
          (utilizationUpperBound : WithTop ℚ) < sourceFillState.utilization) ∧
        shardCost ∈ sourceFillState.shardCostListDesc ∧
        shardCostVerdict state improvementThreshold sourceFillState targetFillState shardCost =
          .move ∧
        findAndMoveShardCost utilizationLowerBound utilizationUpperBound improvementThreshold
            state =
          (true, moveShardCost sourceFillState.node targetFillState.node shardCost
            { state with ignoredMoves := n }) := by
  cases hsearch : (sourceLoop state utilizationLowerBound utilizationUpperBound
      improvementThreshold state.fillStateListDesc).2 with
  | none =>
      refine Or.inl ⟨state.ignoredMoves + (sourceLoop state utilizationLowerBound
        utilizationUpperBound improvementThreshold state.fillStateListDesc).1, ?_⟩
      simp only [findAndMoveShardCost, hsearch]
  | some found =>
      obtain ⟨sourceFillState, targetFillState, shardCost⟩ := found
      obtain ⟨hsource, hlower, htarget, hupper, hunbalanced, hmem, hmove⟩ :=
        sourceLoop_eq_some hsearch
      refine Or.inr ⟨state.ignoredMoves + (sourceLoop state utilizationLowerBound
        utilizationUpperBound improvementThreshold state.fillStateListDesc).1,
        sourceFillState, targetFillState, shardCost,
        mem_fillStateListDesc.mp hsource, hlower, htarget, hupper, hunbalanced, hmem, hmove, ?_⟩
      simp only [findAndMoveShardCost, hsearch]

end FindAndMove

section FindAndMoveSpec

variable (utilizationLowerBound utilizationUpperBound improvementThreshold : ℚ)

/-- A search adds one move when it reports one, and none otherwise. -/
theorem findAndMoveShardCost_placementUpdateList_length (state : RebalanceState) :
    ((findAndMoveShardCost utilizationLowerBound utilizationUpperBound improvementThreshold
        state).2.placementUpdateList.length : Int) =
      state.placementUpdateList.length +
        if (findAndMoveShardCost utilizationLowerBound utilizationUpperBound
          improvementThreshold state).1 then 1 else 0 := by
  rcases findAndMoveShardCost_cases utilizationLowerBound utilizationUpperBound
      improvementThreshold state with ⟨n, h⟩ | ⟨n, _, _, _, -, -, -, -, -, -, -, h⟩
  · rw [h]
    simp
  · rw [h]
    simp

/-- The step lemma of the balance phase. -/
theorem consistent_findAndMoveShardCost (hc : Consistent state) :
    Consistent (findAndMoveShardCost utilizationLowerBound utilizationUpperBound
        improvementThreshold state).2 ∧
      Replays state (findAndMoveShardCost utilizationLowerBound utilizationUpperBound
        improvementThreshold state).2 := by
  rcases findAndMoveShardCost_cases utilizationLowerBound utilizationUpperBound
      improvementThreshold state with
    ⟨n, h⟩ | ⟨n, sourceFillState, targetFillState, shardCost, hsource, -, -, -, -, hmem, hmove, h⟩
  · rw [h]
    exact ⟨hc.of_eq rfl rfl rfl, Replays.of_eq rfl rfl rfl⟩
  · rw [h]
    obtain ⟨hfree, hallowed, -⟩ := shardCostVerdict_eq_move hmove
    have hc' : Consistent { state with ignoredMoves := n } := hc.of_eq rfl rfl rfl
    obtain ⟨hc'', hr⟩ := consistent_replays_moveShardCost hc'
      ⟨sourceFillState, hsource, rfl, hmem⟩ hfree hallowed
    exact ⟨hc'', (Replays.of_eq rfl rfl rfl).trans hr⟩

end FindAndMoveSpec

/-! ## The balancing loop -/

section BalanceLoop

variable (utilizationLowerBound utilizationUpperBound improvementThreshold : ℚ)
  (maxShardMoves : Int)

/-- The run lemma of the balance phase. -/
theorem consistent_balanceLoop : ∀ (fuel : Nat) {state : RebalanceState} (more : Bool),
    Consistent state →
      Consistent (balanceLoop utilizationLowerBound utilizationUpperBound improvementThreshold
          maxShardMoves fuel state more).1 ∧
        Replays state (balanceLoop utilizationLowerBound utilizationUpperBound
          improvementThreshold maxShardMoves fuel state more).1
  | 0, _, _, hc => ⟨hc, Replays.of_eq rfl rfl rfl⟩
  | fuel + 1, state, more, hc => by
      simp only [balanceLoop]
      split_ifs
      · obtain ⟨hc₁, hr₁⟩ := consistent_findAndMoveShardCost utilizationLowerBound
          utilizationUpperBound improvementThreshold hc
        obtain ⟨hc₂, hr₂⟩ := consistent_balanceLoop fuel _ hc₁
        exact ⟨hc₂, hr₁.trans hr₂⟩
      · exact ⟨hc, Replays.of_eq rfl rfl rfl⟩

theorem balanceLoop_false : ∀ (fuel : Nat) (state : RebalanceState),
    balanceLoop utilizationLowerBound utilizationUpperBound improvementThreshold maxShardMoves
      fuel state false = (state, false)
  | 0, _ => rfl
  | _ + 1, _ => by simp [balanceLoop]

/-- With more rounds of fuel than moves left in the budget, the loop stops by its
own condition, as the source's `while` loop does. -/
theorem balanceLoop_fuel : ∀ (fuel : Nat) (state : RebalanceState) (more : Bool),
    (maxShardMoves - state.placementUpdateList.length).toNat < fuel →
      ¬ (((balanceLoop utilizationLowerBound utilizationUpperBound improvementThreshold
            maxShardMoves fuel state more).1.placementUpdateList.length : Int) < maxShardMoves ∧
          (balanceLoop utilizationLowerBound utilizationUpperBound improvementThreshold
            maxShardMoves fuel state more).2 = true)
  | 0, _, _, hfuel => absurd hfuel (Nat.not_lt_zero _)
  | fuel + 1, state, more, hfuel => by
      simp only [balanceLoop]
      split_ifs with hcond
      · have hlength := findAndMoveShardCost_placementUpdateList_length utilizationLowerBound
          utilizationUpperBound improvementThreshold state
        cases hfound : (findAndMoveShardCost utilizationLowerBound utilizationUpperBound
            improvementThreshold state).1
        · -- no move found: the loop ends at once
          rw [balanceLoop_false]
          simp
        · -- one move found: one move fewer is left in the budget
          rw [hfound, if_pos rfl] at hlength
          apply balanceLoop_fuel
          omega
      · exact hcond

end BalanceLoop

end Citus.Rebalancer
