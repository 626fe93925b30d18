import Citus.Rebalancer.Phases

/-!
# The plan is executable on the cluster

`RebalancePlacementUpdates` plans each colocation group on its own state, and the
states take turns appending to one shared list of moves. Each state's moves are
executable on that state's own placements (`Replays`); when no shard has
placements in two groups, the moves of one group are executable on the whole
cluster too, since the other groups' placements never hold the shard that moves
(`applyPlacementUpdates_frame`). Following both phases state by state, the whole
plan runs on the cluster's placements, and executing it keeps the number of
placements of every shard and never puts a shard twice on a node.

When two groups share a shard, the plan need not be executable: the second group
does not see the first group's placement and may move the shard onto it
(`rebalancePlacementUpdates_shared_shard`).
-/

namespace Citus.Rebalancer

/-- The placements of all states: the cluster, as far as the planner sees it. -/
def clusterPlacements (states : List RebalanceState) : List ShardPlacement :=
  (states.map RebalanceState.placementsHash).flatten

/-- No shard has placements in two states. -/
def ShardsSeparate (states : List RebalanceState) : Prop :=
  states.Pairwise fun state state' => ShardDisjoint state.placementsHash state'.placementsHash

variable {pre post : List RebalanceState} {state state' : RebalanceState}

theorem clusterPlacements_append_cons :
    clusterPlacements (pre ++ state :: post) =
      clusterPlacements pre ++ (state.placementsHash ++ clusterPlacements post) := by
  simp [clusterPlacements]

/-- A state whose shards are among those of a state it replaces keeps the states
separate. -/
theorem ShardsSeparate.replace (hseparate : ShardsSeparate (pre ++ state :: post))
    (hsub : ∀ y ∈ state'.placementsHash, ∃ x ∈ state.placementsHash, x.shardId = y.shardId) :
    ShardsSeparate (pre ++ state' :: post) := by
  unfold ShardsSeparate at hseparate ⊢
  rw [List.pairwise_append, List.pairwise_cons] at hseparate ⊢
  obtain ⟨hpre, ⟨hstate, hpost⟩, hcross⟩ := hseparate
  refine ⟨hpre, ⟨fun t ht => ((hstate t ht).symm.mono_right hsub).symm, hpost⟩,
    fun a ha b hb => ?_⟩
  rcases List.mem_cons.mp hb with rfl | hb
  · exact (hcross a ha state List.mem_cons_self).mono_right hsub
  · exact hcross a ha b (List.mem_cons_of_mem _ hb)

/-- The placements of the other states share no shard with a state's own. -/
theorem ShardsSeparate.disjoint_others (hseparate : ShardsSeparate (pre ++ state :: post)) :
    ShardDisjoint (clusterPlacements pre ++ clusterPlacements post) state.placementsHash := by
  unfold ShardsSeparate at hseparate
  rw [List.pairwise_append, List.pairwise_cons] at hseparate
  obtain ⟨-, ⟨hstate, -⟩, hcross⟩ := hseparate
  intro x hx y hy
  simp only [clusterPlacements, List.mem_append, List.mem_flatten, List.mem_map] at hx
  rcases hx with ⟨_, ⟨t, ht, rfl⟩, hx⟩ | ⟨_, ⟨t, ht, rfl⟩, hx⟩
  · exact hcross t ht state List.mem_cons_self x hx y hy
  · exact (hstate t ht).symm x hx y hy

/-- The step shared by both phases: one state continues, and its new moves run on
the whole cluster. -/
theorem Replays.cluster {all : List ShardPlacement} (hreplays : Replays state state')
    (hseparate : ShardsSeparate (pre ++ state :: post))
    (hall : all.Perm (clusterPlacements (pre ++ state :: post))) :
    ∃ events all', state'.placementUpdateList = state.placementUpdateList ++ events ∧
      applyPlacementUpdates state.functions.shardAllowedOnNode all events = some all' ∧
      all'.Perm (clusterPlacements (pre ++ state' :: post)) ∧
      ShardsSeparate (pre ++ state' :: post) := by
  obtain ⟨-, events, hlist, happly⟩ := hreplays
  have hall' : all.Perm (state.placementsHash ++ (clusterPlacements pre ++
      clusterPlacements post)) := by
    refine hall.trans ?_
    rw [clusterPlacements_append_cons]
    exact List.perm_append_comm_assoc _ _ _
  obtain ⟨all', happly', hperm', -⟩ :=
    applyPlacementUpdates_frame happly hseparate.disjoint_others hall'
  refine ⟨events, all', hlist, happly', ?_,
    hseparate.replace (shardIds_applyPlacementUpdates happly)⟩
  refine hperm'.trans ?_
  rw [clusterPlacements_append_cons]
  exact List.perm_append_comm_assoc _ _ _

variable {functions : RebalancePlanFunctions}

/-- The drain phase, state by state: `pre` are the states already drained. -/
theorem drainRebalanceStates_replays : ∀ (post pre : List RebalanceState)
    (placementUpdateList : List PlacementUpdateEvent) (all : List ShardPlacement),
    (∀ s ∈ pre, Consistent s ∧ s.functions = functions) →
    (∀ s ∈ post, Consistent s ∧ DrainPending s s.disallowedPlacementList ∧
      s.functions = functions) →
    ShardsSeparate (pre ++ post) → all.Perm (clusterPlacements (pre ++ post)) →
    ∃ events all', (drainRebalanceStates post placementUpdateList).2 =
        placementUpdateList ++ events ∧
      applyPlacementUpdates functions.shardAllowedOnNode all events = some all' ∧
      all'.Perm (clusterPlacements (pre ++ (drainRebalanceStates post placementUpdateList).1)) ∧
      ShardsSeparate (pre ++ (drainRebalanceStates post placementUpdateList).1) ∧
      ∀ s ∈ pre ++ (drainRebalanceStates post placementUpdateList).1,
        Consistent s ∧ s.functions = functions
  | [], pre, placementUpdateList, all, hpre, _, hseparate, hall => by
      refine ⟨[], all, by simp [drainRebalanceStates], rfl, by simpa [drainRebalanceStates] using hall,
        by simpa [drainRebalanceStates] using hseparate, ?_⟩
      simpa [drainRebalanceStates] using hpre
  | state :: post, pre, placementUpdateList, all, hpre, hpost, hseparate, hall => by
      obtain ⟨hc, hp, hfunctions⟩ := hpost state List.mem_cons_self
      -- the state continues the shared list of moves
      have hc₀ : Consistent { state with placementUpdateList } := hc.of_eq rfl rfl rfl
      have hp₀ : DrainPending { state with placementUpdateList } state.disallowedPlacementList :=
        hp.of_fillStates rfl
      have hall₀ : all.Perm (clusterPlacements (pre ++ { state with placementUpdateList } :: post)) := by
        rw [clusterPlacements_append_cons] at hall ⊢
        exact hall
      obtain ⟨hc₁, hr₁⟩ := consistent_moveShardsAwayFromDisallowedNodes hc₀ hp₀
      obtain ⟨events₁, all₁, hlist₁, happly₁, hperm₁, hseparate₁⟩ :=
        hr₁.cluster (hseparate.replace fun y hy => ⟨y, hy, rfl⟩) hall₀
      have happly₁' : applyPlacementUpdates functions.shardAllowedOnNode all events₁ = some all₁ := by
        rw [← hfunctions]
        exact happly₁
      have hpre₁ : ∀ s ∈ pre ++ [moveShardsAwayFromDisallowedNodes
          { state with placementUpdateList }], Consistent s ∧ s.functions = functions := by
        intro s hs
        rcases List.mem_append.mp hs with hs | hs
        · exact hpre s hs
        · rw [List.mem_singleton.mp hs]
          exact ⟨hc₁, hr₁.1.trans hfunctions⟩
      obtain ⟨events₂, all₂, hlist₂, happly₂, hperm₂, hseparate₂, hall₂⟩ :=
        drainRebalanceStates_replays post _ _ all₁ hpre₁
          (fun s hs => hpost s (List.mem_cons_of_mem _ hs))
          (by simpa using hseparate₁) (by simpa using hperm₁)
      refine ⟨events₁ ++ events₂, all₂, ?_, ?_, by simpa [drainRebalanceStates] using hperm₂,
        by simpa [drainRebalanceStates] using hseparate₂, by simpa [drainRebalanceStates] using hall₂⟩
      · simp only [drainRebalanceStates]
        rw [hlist₂, hlist₁, List.append_assoc]
      · rw [applyPlacementUpdates_append happly₁']
        exact happly₂

/-- The balance phase, state by state, up to the state that ends it. -/
theorem balanceRebalanceStates_replays (threshold : ℚ) (maxShardMoves : Int)
    (improvementThreshold : ℚ) : ∀ (post pre : List RebalanceState)
    (placementUpdateList : List PlacementUpdateEvent) (all : List ShardPlacement),
    (∀ s ∈ pre ++ post, Consistent s ∧ s.functions = functions) →
    ShardsSeparate (pre ++ post) → all.Perm (clusterPlacements (pre ++ post)) →
    ∃ events all', balanceRebalanceStates threshold maxShardMoves improvementThreshold post
        placementUpdateList = placementUpdateList ++ events ∧
      applyPlacementUpdates functions.shardAllowedOnNode all events = some all'
  | [], _, placementUpdateList, all, _, _, _ =>
      ⟨[], all, by simp [balanceRebalanceStates], rfl⟩
  | state :: post, pre, placementUpdateList, all, hstates, hseparate, hall => by
      obtain ⟨hc, hfunctions⟩ := hstates state (List.mem_append_right _ List.mem_cons_self)
      have hc₀ : Consistent { state with placementUpdateList } := hc.of_eq rfl rfl rfl
      obtain ⟨hc₁, hr₁⟩ := consistent_balanceLoop
        (utilizationBounds threshold { state with placementUpdateList }).1
        (utilizationBounds threshold { state with placementUpdateList }).2
        improvementThreshold maxShardMoves (maxShardMoves.toNat + 1) true hc₀
      have hall₀ : all.Perm (clusterPlacements (pre ++ { state with placementUpdateList } :: post)) := by
        rw [clusterPlacements_append_cons] at hall ⊢
        exact hall
      obtain ⟨events₁, all₁, hlist₁, happly₁, hperm₁, hseparate₁⟩ :=
        hr₁.cluster (hseparate.replace fun y hy => ⟨y, hy, rfl⟩) hall₀
      have happly₁' : applyPlacementUpdates functions.shardAllowedOnNode all events₁ = some all₁ := by
        rw [← hfunctions]
        exact happly₁
      simp only [balanceRebalanceStates]
      split_ifs
      · -- the budget ran out with moves left: the phase ends here
        exact ⟨events₁, all₁, hlist₁, happly₁'⟩
      · have hstates₁ : ∀ s ∈ (pre ++ [(balanceLoop
            (utilizationBounds threshold { state with placementUpdateList }).1
            (utilizationBounds threshold { state with placementUpdateList }).2
            improvementThreshold maxShardMoves (maxShardMoves.toNat + 1)
            { state with placementUpdateList } true).1]) ++ post,
            Consistent s ∧ s.functions = functions := by
          intro s hs
          simp only [List.mem_append, List.mem_singleton] at hs
          rcases hs with (hs | rfl) | hs
          · exact hstates s (List.mem_append_left _ hs)
          · exact ⟨hc₁, hr₁.1.trans hfunctions⟩
          · exact hstates s (List.mem_append_right _ (List.mem_cons_of_mem _ hs))
        obtain ⟨events₂, all₂, hlist₂, happly₂⟩ :=
          balanceRebalanceStates_replays threshold maxShardMoves improvementThreshold post _ _
            all₁ hstates₁ (by simpa using hseparate₁) (by simpa using hperm₁)
        refine ⟨events₁ ++ events₂, all₂, ?_, ?_⟩
        · rw [hlist₂, hlist₁, List.append_assoc]
        · rw [applyPlacementUpdates_append happly₁']
          exact happly₂

/-- `InitRebalanceState` for every list: consistent states over the given
placements, nothing planned yet. -/
theorem mapM_initRebalanceState {workerNodeList : List Nat} (hworkers : workerNodeList.Nodup) :
    ∀ {activeShardPlacementListList : List (List ShardPlacement)}
      {rebalanceStates : List RebalanceState},
      activeShardPlacementListList.mapM (fun shardPlacementList =>
          initRebalanceState workerNodeList shardPlacementList functions) =
        some rebalanceStates →
      (∀ s ∈ rebalanceStates, Consistent s ∧ DrainPending s s.disallowedPlacementList ∧
        s.functions = functions ∧ s.placementUpdateList = []) ∧
      rebalanceStates.map RebalanceState.placementsHash =
        activeShardPlacementListList.map shardPlacementsListToHash
  | [], rebalanceStates, h => by
      rw [List.mapM_nil] at h
      cases h
      exact ⟨by simp, rfl⟩
  | shardPlacementList :: rest, rebalanceStates, h => by
      rw [List.mapM_cons] at h
      cases hinit : initRebalanceState workerNodeList shardPlacementList functions with
      | none =>
          rw [hinit] at h
          cases h
      | some state =>
          cases hrest : rest.mapM (fun shardPlacementList =>
              initRebalanceState workerNodeList shardPlacementList functions) with
          | none =>
              rw [hinit, hrest] at h
              cases h
          | some states =>
              rw [hinit, hrest] at h
              cases h
              obtain ⟨hc, hp, hfunctions, hhash, hlist⟩ := initRebalanceState_spec hworkers hinit
              obtain ⟨hstates, hhashes⟩ := mapM_initRebalanceState hworkers hrest
              refine ⟨?_, by rw [List.map_cons, List.map_cons, hhash, hhashes]⟩
              intro s hs
              rcases List.mem_cons.mp hs with rfl | hs
              · exact ⟨hc, hp, hfunctions, hlist⟩
              · exact hstates s hs

/-- The moves `RebalancePlacementUpdates` returns are executable in order on the
initial placements when no shard has placements in two of the lists, and
executing them keeps the number of placements of every shard and never puts a
shard twice on a node. -/
theorem rebalancePlacementUpdates_executable (workerNodeList : List Nat)
    (hworkers : workerNodeList.Nodup) (activeShardPlacementListList : List (List ShardPlacement))
    (hnodup : activeShardPlacementListList.flatten.Nodup)
    (hseparate : activeShardPlacementListList.Pairwise ShardDisjoint)
    (threshold : ℚ) (maxShardMoves : Int) (drainOnly : Bool) (improvementThreshold : ℚ)
    (functions : RebalancePlanFunctions) (placementUpdateList : List PlacementUpdateEvent)
    (h : rebalancePlacementUpdates workerNodeList activeShardPlacementListList threshold
      maxShardMoves drainOnly improvementThreshold functions = some placementUpdateList) :
    ∃ placements, applyPlacementUpdates functions.shardAllowedOnNode
        activeShardPlacementListList.flatten placementUpdateList = some placements ∧
      (∀ shardId, placementCount placements shardId =
        placementCount activeShardPlacementListList.flatten shardId) ∧
      placements.Nodup := by
  suffices hrun : ∃ placements, applyPlacementUpdates functions.shardAllowedOnNode
      activeShardPlacementListList.flatten placementUpdateList = some placements from by
    obtain ⟨placements, happly⟩ := hrun
    exact ⟨placements, happly, placementCount_applyPlacementUpdates happly,
      applyPlacementUpdates_nodup happly hnodup⟩
  unfold rebalancePlacementUpdates at h
  cases hinit : activeShardPlacementListList.mapM (fun shardPlacementList =>
      initRebalanceState workerNodeList shardPlacementList functions) with
  | none =>
      rw [hinit] at h
      cases h
  | some rebalanceStates =>
      rw [hinit] at h
      obtain ⟨hstates, hhashes⟩ := mapM_initRebalanceState hworkers hinit
      -- every list is free of duplicates, so its hash is the list itself
      have hlists : rebalanceStates.map RebalanceState.placementsHash = activeShardPlacementListList := by
        rw [hhashes]
        refine (List.map_congr_left fun l hl => ?_).trans (List.map_id _)
        exact List.dedup_eq_self.mpr (List.nodup_flatten.mp hnodup |>.1 l hl)
      have hcluster : clusterPlacements rebalanceStates = activeShardPlacementListList.flatten := by
        rw [clusterPlacements, hlists]
      have hseparate₀ : ShardsSeparate rebalanceStates := by
        unfold ShardsSeparate
        rw [← hlists, List.pairwise_map] at hseparate
        exact hseparate
      obtain ⟨events₁, all₁, hlist₁, happly₁, hperm₁, hseparate₁, hdrained⟩ :=
        drainRebalanceStates_replays rebalanceStates [] [] activeShardPlacementListList.flatten
          (by simp) (fun s hs => ⟨(hstates s hs).1, (hstates s hs).2.1, (hstates s hs).2.2.1⟩)
          (by simpa using hseparate₀) (by rw [List.nil_append, hcluster])
      rw [List.nil_append] at hlist₁ hperm₁ hseparate₁ hdrained
      cases drainOnly
      · -- both phases: the balance phase continues the drained list
        simp only [Bool.false_eq_true, if_false, Option.pure_def, Option.bind_eq_bind,
          Option.bind_some, Option.some.injEq] at h
        obtain ⟨events₂, all₂, hlist₂, happly₂⟩ :=
          balanceRebalanceStates_replays threshold maxShardMoves improvementThreshold _ [] _ all₁
            (by simpa using hdrained) (by simpa using hseparate₁) (by simpa using hperm₁)
        refine ⟨all₂, ?_⟩
        rw [← h, hlist₂, hlist₁, applyPlacementUpdates_append happly₁]
        exact happly₂
      · simp only [if_true, Option.pure_def, Option.bind_eq_bind, Option.bind_some,
          Option.some.injEq] at h
        refine ⟨all₁, ?_⟩
        rw [← h, hlist₁]
        exact happly₁

/-- One list on two nodes: the balance phase moves shard 1 from node 1 to the
empty node 2, and that move executes. -/
theorem rebalancePlacementUpdates_executable_two_nodes :
    ∃ placements, applyPlacementUpdates (fun _ _ => true) [[(⟨1, 1⟩ : ShardPlacement), ⟨2, 1⟩]].flatten
        [⟨1, 1, 2⟩] = some placements ∧
      (∀ shardId, placementCount placements shardId =
        placementCount [[(⟨1, 1⟩ : ShardPlacement), ⟨2, 1⟩]].flatten shardId) ∧
      placements.Nodup :=
  rebalancePlacementUpdates_executable [1, 2] (by decide) [[⟨1, 1⟩, ⟨2, 1⟩]] (by decide)
    (List.pairwise_singleton _ _) 0 10 false 0 ⟨fun _ _ => true, fun _ => 1, fun _ => 1⟩
    [⟨1, 1, 2⟩] (by decide +kernel)

/-- Two lists that share shard 1: the drain phase has nothing to do, and the
balance phase of the second list moves shard 1 from node 2 to node 1, which the
first list's placement of shard 1 already occupies. -/
theorem rebalancePlacementUpdates_shared_shard :
    [[(⟨1, 1⟩ : ShardPlacement)], [⟨1, 2⟩, ⟨2, 2⟩]].flatten.Nodup ∧
      rebalancePlacementUpdates [1, 2] [[⟨1, 1⟩], [⟨1, 2⟩, ⟨2, 2⟩]] 0 10 false 0
        ⟨fun _ _ => true, fun _ => 1, fun _ => 1⟩ = some [⟨1, 2, 1⟩] ∧
      applyPlacementUpdates (fun _ _ => true) [⟨1, 1⟩, ⟨1, 2⟩, ⟨2, 2⟩] [⟨1, 2, 1⟩] = none := by
  refine ⟨by decide, by decide +kernel, by decide⟩

end Citus.Rebalancer
