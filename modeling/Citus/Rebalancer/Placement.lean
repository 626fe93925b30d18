import Citus.Rebalancer.Model

/-!
# Executing planned moves

The moves that `RebalancePlacementUpdates` returns are carried out one after
another on the cluster's placements. A move is executable when its source node
holds the shard, its target node does not, and the strategy allows the shard on
the target; executing it moves the placement from the source to the target.

Executing moves keeps the number of placements of every shard and keeps a node
from holding a shard twice. Moves that only touch the shards of one group of
placements run the same way when the placements of other shards are around them
(`applyPlacementUpdates_frame`): this is how the states of the colocation groups,
each planning on its own placements, combine into one executable plan.
-/

namespace Citus.Rebalancer

/-- The placement a move takes away. -/
def PlacementUpdateEvent.sourcePlacement (event : PlacementUpdateEvent) : ShardPlacement :=
  ⟨event.shardId, event.sourceNode⟩

/-- The placement a move creates. -/
def PlacementUpdateEvent.targetPlacement (event : PlacementUpdateEvent) : ShardPlacement :=
  ⟨event.shardId, event.targetNode⟩

/-- Execute one move when it is executable. -/
def applyPlacementUpdate (shardAllowedOnNode : Nat → Nat → Bool)
    (placements : List ShardPlacement) (event : PlacementUpdateEvent) :
    Option (List ShardPlacement) :=
  if event.sourcePlacement ∈ placements ∧ event.targetPlacement ∉ placements ∧
      shardAllowedOnNode event.shardId event.targetNode = true then
    some (placements.erase event.sourcePlacement ++ [event.targetPlacement])
  else none

/-- Execute moves in order; `none` when one of them is not executable. -/
def applyPlacementUpdates (shardAllowedOnNode : Nat → Nat → Bool)
    (placements : List ShardPlacement) (events : List PlacementUpdateEvent) :
    Option (List ShardPlacement) :=
  events.foldlM (applyPlacementUpdate shardAllowedOnNode) placements

/-- The number of placements of a shard. -/
def placementCount (placements : List ShardPlacement) (shardId : Nat) : Nat :=
  placements.countP fun placement => placement.shardId == shardId

/-- No shard has placements in both lists. -/
def ShardDisjoint (placements placements' : List ShardPlacement) : Prop :=
  ∀ x ∈ placements, ∀ y ∈ placements', x.shardId ≠ y.shardId

section Step

variable {shardAllowedOnNode : Nat → Nat → Bool} {placements placements' : List ShardPlacement}
  {event : PlacementUpdateEvent}

theorem applyPlacementUpdate_eq_some :
    applyPlacementUpdate shardAllowedOnNode placements event = some placements' ↔
      event.sourcePlacement ∈ placements ∧ event.targetPlacement ∉ placements ∧
        shardAllowedOnNode event.shardId event.targetNode = true ∧
        placements' = placements.erase event.sourcePlacement ++ [event.targetPlacement] := by
  unfold applyPlacementUpdate
  split_ifs with h
  · simp only [Option.some.injEq]
    exact ⟨fun he => ⟨h.1, h.2.1, h.2.2, he.symm⟩, fun he => he.2.2.2.symm⟩
  · simp only [false_iff]
    exact fun he => h ⟨he.1, he.2.1, he.2.2.1⟩

theorem applyPlacementUpdate_nodup (h : applyPlacementUpdate shardAllowedOnNode placements event =
    some placements') (hnodup : placements.Nodup) : placements'.Nodup := by
  obtain ⟨-, htarget, -, rfl⟩ := applyPlacementUpdate_eq_some.mp h
  rw [List.nodup_append]
  refine ⟨hnodup.erase _, List.nodup_singleton _, ?_⟩
  intro a ha b hb hab
  rw [List.mem_singleton] at hb
  subst hab hb
  exact htarget (List.mem_of_mem_erase ha)

theorem placementCount_applyPlacementUpdate (h : applyPlacementUpdate shardAllowedOnNode
    placements event = some placements') (shardId : Nat) :
    placementCount placements' shardId = placementCount placements shardId := by
  obtain ⟨hsource, -, -, rfl⟩ := applyPlacementUpdate_eq_some.mp h
  -- the erased placement and the new one belong to the same shard
  have hperm := (List.perm_cons_erase hsource).countP_eq fun p : ShardPlacement => p.shardId == shardId
  simp only [placementCount, List.countP_append, hperm, List.countP_cons]
  simp [PlacementUpdateEvent.sourcePlacement, PlacementUpdateEvent.targetPlacement]

/-- Every shard of the placements after a move already had a placement before. -/
theorem shardIds_applyPlacementUpdate (h : applyPlacementUpdate shardAllowedOnNode placements
    event = some placements') : ∀ y ∈ placements', ∃ x ∈ placements, x.shardId = y.shardId := by
  obtain ⟨hsource, -, -, rfl⟩ := applyPlacementUpdate_eq_some.mp h
  intro y hy
  rcases List.mem_append.mp hy with hy | hy
  · exact ⟨y, List.mem_of_mem_erase hy, rfl⟩
  · rw [List.mem_singleton.mp hy]
    exact ⟨_, hsource, rfl⟩

theorem ShardDisjoint.mono_right {others : List ShardPlacement}
    (hdisjoint : ShardDisjoint others placements)
    (hsub : ∀ y ∈ placements', ∃ x ∈ placements, x.shardId = y.shardId) :
    ShardDisjoint others placements' := by
  intro x hx y hy
  obtain ⟨z, hz, hzy⟩ := hsub y hy
  rw [← hzy]
  exact hdisjoint x hx z hz

theorem ShardDisjoint.symm (hdisjoint : ShardDisjoint placements placements') :
    ShardDisjoint placements' placements :=
  fun x hx y hy hxy => hdisjoint y hy x hx hxy.symm

theorem ShardDisjoint.applyPlacementUpdate {others : List ShardPlacement}
    (hdisjoint : ShardDisjoint others placements)
    (h : applyPlacementUpdate shardAllowedOnNode placements event = some placements') :
    ShardDisjoint others placements' :=
  hdisjoint.mono_right (shardIds_applyPlacementUpdate h)

/-- A move that is executable on some placements is executable, with the same
effect, when the placements of other shards are added. -/
theorem applyPlacementUpdate_frame {others all : List ShardPlacement}
    (h : applyPlacementUpdate shardAllowedOnNode placements event = some placements')
    (hdisjoint : ShardDisjoint others placements) (hall : all.Perm (placements ++ others)) :
    ∃ all', applyPlacementUpdate shardAllowedOnNode all event = some all' ∧
      all'.Perm (placements' ++ others) := by
  obtain ⟨hsource, htarget, hallowed, rfl⟩ := applyPlacementUpdate_eq_some.mp h
  have hsource' : event.sourcePlacement ∈ all :=
    hall.mem_iff.mpr (List.mem_append_left _ hsource)
  -- the target placement is not among the others: they hold no placement of this shard
  have htarget' : event.targetPlacement ∉ all := by
    intro hmem
    rcases List.mem_append.mp (hall.mem_iff.mp hmem) with hmem | hmem
    · exact htarget hmem
    · exact hdisjoint _ hmem _ hsource rfl
  refine ⟨all.erase event.sourcePlacement ++ [event.targetPlacement],
    applyPlacementUpdate_eq_some.mpr ⟨hsource', htarget', hallowed, rfl⟩, ?_⟩
  calc all.erase event.sourcePlacement ++ [event.targetPlacement]
      _ |>.Perm ((placements ++ others).erase event.sourcePlacement ++ [event.targetPlacement]) :=
        (hall.erase _).append_right _
      _ = placements.erase event.sourcePlacement ++ (others ++ [event.targetPlacement]) := by
        rw [List.erase_append_left _ hsource, List.append_assoc]
      _ |>.Perm (placements.erase event.sourcePlacement ++ ([event.targetPlacement] ++ others)) :=
        List.Perm.append_left _ List.perm_append_comm
      _ = placements.erase event.sourcePlacement ++ [event.targetPlacement] ++ others := by
        rw [List.append_assoc]

end Step

section Run

variable {shardAllowedOnNode : Nat → Nat → Bool}

@[simp] theorem applyPlacementUpdates_nil (placements : List ShardPlacement) :
    applyPlacementUpdates shardAllowedOnNode placements [] = some placements := rfl

theorem applyPlacementUpdates_cons (placements : List ShardPlacement)
    (event : PlacementUpdateEvent) (events : List PlacementUpdateEvent) :
    applyPlacementUpdates shardAllowedOnNode placements (event :: events) =
      (applyPlacementUpdate shardAllowedOnNode placements event).bind fun placements' =>
        applyPlacementUpdates shardAllowedOnNode placements' events := rfl

theorem applyPlacementUpdates_append {placements placements' : List ShardPlacement}
    {events events' : List PlacementUpdateEvent}
    (h : applyPlacementUpdates shardAllowedOnNode placements events = some placements') :
    applyPlacementUpdates shardAllowedOnNode placements (events ++ events') =
      applyPlacementUpdates shardAllowedOnNode placements' events' := by
  unfold applyPlacementUpdates at h ⊢
  rw [List.foldlM_append, h]
  rfl

theorem applyPlacementUpdates_eq_some_cons {placements placements'' : List ShardPlacement}
    {event : PlacementUpdateEvent} {events : List PlacementUpdateEvent}
    (h : applyPlacementUpdates shardAllowedOnNode placements (event :: events) =
      some placements'') :
    ∃ placements', applyPlacementUpdate shardAllowedOnNode placements event = some placements' ∧
      applyPlacementUpdates shardAllowedOnNode placements' events = some placements'' := by
  rw [applyPlacementUpdates_cons] at h
  cases hstep : applyPlacementUpdate shardAllowedOnNode placements event with
  | none => rw [hstep] at h; cases h
  | some placements' => exact ⟨placements', rfl, by rwa [hstep] at h⟩

/-- Every shard of the placements after some moves already had a placement before. -/
theorem shardIds_applyPlacementUpdates : ∀ {events : List PlacementUpdateEvent}
    {placements placements' : List ShardPlacement},
    applyPlacementUpdates shardAllowedOnNode placements events = some placements' →
      ∀ y ∈ placements', ∃ x ∈ placements, x.shardId = y.shardId
  | [], _, _, h, y, hy => by
      cases h
      exact ⟨y, hy, rfl⟩
  | _ :: _, _, _, h, y, hy => by
      obtain ⟨_, hstep, hrest⟩ := applyPlacementUpdates_eq_some_cons h
      obtain ⟨z, hz, hzy⟩ := shardIds_applyPlacementUpdates hrest y hy
      obtain ⟨x, hx, hxz⟩ := shardIds_applyPlacementUpdate hstep z hz
      exact ⟨x, hx, hxz.trans hzy⟩

/-- Executing moves keeps the placements free of duplicates. -/
theorem applyPlacementUpdates_nodup : ∀ {events : List PlacementUpdateEvent}
    {placements placements' : List ShardPlacement},
    applyPlacementUpdates shardAllowedOnNode placements events = some placements' →
      placements.Nodup → placements'.Nodup
  | [], _, _, h, hnodup => by
      cases h
      exact hnodup
  | _ :: _, _, _, h, hnodup => by
      obtain ⟨_, hstep, hrest⟩ := applyPlacementUpdates_eq_some_cons h
      exact applyPlacementUpdates_nodup hrest (applyPlacementUpdate_nodup hstep hnodup)

/-- Executing moves keeps the number of placements of every shard. -/
theorem placementCount_applyPlacementUpdates : ∀ {events : List PlacementUpdateEvent}
    {placements placements' : List ShardPlacement},
    applyPlacementUpdates shardAllowedOnNode placements events = some placements' →
      ∀ shardId, placementCount placements' shardId = placementCount placements shardId
  | [], _, _, h, _ => by cases h; rfl
  | _ :: _, _, _, h, shardId => by
      obtain ⟨_, hstep, hrest⟩ := applyPlacementUpdates_eq_some_cons h
      rw [placementCount_applyPlacementUpdates hrest,
        placementCount_applyPlacementUpdate hstep]

/-- The moves planned on one group of placements run the same way among the
placements of other shards. -/
theorem applyPlacementUpdates_frame : ∀ {events : List PlacementUpdateEvent}
    {placements placements' others all : List ShardPlacement},
    applyPlacementUpdates shardAllowedOnNode placements events = some placements' →
      ShardDisjoint others placements → all.Perm (placements ++ others) →
      ∃ all', applyPlacementUpdates shardAllowedOnNode all events = some all' ∧
        all'.Perm (placements' ++ others) ∧ ShardDisjoint others placements'
  | [], _, _, _, all, h, hdisjoint, hall => by
      cases h
      exact ⟨all, rfl, hall, hdisjoint⟩
  | _ :: _, _, _, _, _, h, hdisjoint, hall => by
      obtain ⟨_, hstep, hrest⟩ := applyPlacementUpdates_eq_some_cons h
      obtain ⟨all₁, hall₁, hperm₁⟩ := applyPlacementUpdate_frame hstep hdisjoint hall
      obtain ⟨all', hall', hperm', hdisjoint'⟩ :=
        applyPlacementUpdates_frame hrest (hdisjoint.applyPlacementUpdate hstep) hperm₁
      exact ⟨all', by rw [applyPlacementUpdates_cons, hall₁]; exact hall', hperm', hdisjoint'⟩

end Run

end Citus.Rebalancer
