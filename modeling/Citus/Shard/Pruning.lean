import Citus.Shard.PruningInstance
import Citus.Shard.Routing

/-!
# Pruning shards

`PruneShards` returns the shards of a table that its WHERE clause cannot rule
out. After building the pruning instances it prunes with each complete instance
(`PruneOne`) and returns the union of the results; an instance without usable
restrictions, or on a hash table without an equality, keeps every shard.

`PruneOne` tries, in order: the shard of an equality (`FindShardInterval`), the
shard of a pre-hashed equality, two bisections for the first and the last shard
within the range bounds (`LowerShardBoundary`, `UpperShardBoundary`), and a check
of every shard (`ExhaustivePrune`).

## Implementation notes

Constants are column values; where the source passes their `Datum` to the shard
interval comparator, the model reads them as interval values with
`CitusTableCacheEntry.datumValue`. The copy of the result list
(`DeepCopyShardIntervalList`) and the partition value `PruneShards` reports through
its out-parameter are not modelled.
-/

namespace Citus.Shard

open Bisection

section Boundaries

variable {α : Type} [LinearOrder α] [Inhabited α]

/-- One probe of `LowerShardBoundary` at `middleIndex`: left of the interval, in
it, or right of it, where a value equal to the max is right of it unless
`includeMax`. -/
def lowerShardBoundaryProbe (partitionColumnValue : α) (shardIntervalCache : List (ShardInterval α))
    (includeMax : Bool) (middleIndex : Nat) : Probe :=
  match shardIntervalCache[middleIndex]? with
  | none => .left
  | some shardInterval =>
      let minValueComparison := compare partitionColumnValue (shardInterval.minValue.getD default)
      if minValueComparison = .lt then .left
      else
        let maxValueComparison :=
          compare partitionColumnValue (shardInterval.maxValue.getD default)
        if (maxValueComparison = .eq ∧ !includeMax) ∨ maxValueComparison = .gt then .right
        else .found

/-- `LowerShardBoundary`: the index of the first interval that holds values
`>= partitionColumnValue` (`>` without `includeMax`); `none` is
`INVALID_SHARD_INDEX`. -/
def lowerShardBoundary (partitionColumnValue : α) (shardIntervalCache : List (ShardInterval α))
    (shardCount : Nat) (includeMax : Bool) : Option Nat :=
  match search (lowerShardBoundaryProbe partitionColumnValue shardIntervalCache includeMax) 0
      shardCount with
  | .found middleIndex => some middleIndex
  | .exhausted lowerBoundIndex => if lowerBoundIndex = shardCount then none else some lowerBoundIndex

/-- One probe of `UpperShardBoundary` at `middleIndex`, where a value equal to the
min is left of the interval unless `includeMin`. -/
def upperShardBoundaryProbe (partitionColumnValue : α) (shardIntervalCache : List (ShardInterval α))
    (includeMin : Bool) (middleIndex : Nat) : Probe :=
  match shardIntervalCache[middleIndex]? with
  | none => .left
  | some shardInterval =>
      let minValueComparison := compare partitionColumnValue (shardInterval.minValue.getD default)
      if (minValueComparison = .eq ∧ !includeMin) ∨ minValueComparison = .lt then .left
      else if compare partitionColumnValue (shardInterval.maxValue.getD default) = .gt then .right
      else .found

/-- `UpperShardBoundary`: the index of the last interval that holds values
`<= partitionColumnValue` (`<` without `includeMin`). The loop ends with equal
bounds, so the exhausted index is `upperBoundIndex`. -/
def upperShardBoundary (partitionColumnValue : α) (shardIntervalCache : List (ShardInterval α))
    (shardCount : Nat) (includeMin : Bool) : Option Nat :=
  match search (upperShardBoundaryProbe partitionColumnValue shardIntervalCache includeMin) 0
      shardCount with
  | .found middleIndex => some middleIndex
  | .exhausted upperBoundIndex => if upperBoundIndex = 0 then none else some (upperBoundIndex - 1)

end Boundaries

section PruneOne

variable {β α : Type} [LinearOrder β] [LinearOrder α] [Inhabited α]
  (cacheEntry : CitusTableCacheEntry β α)

/-- The lower bound `PruneWithBoundaries` searches with: the `>=` constant, or
the `>` constant when there is no `>=` one or it is at least as large; with
whether the bound is inclusive. -/
def pruneLowerBound (prune : PruningInstance β) : Option (α × Bool) :=
  let lowerBound := prune.greaterEqualConsts.map fun c => (cacheEntry.datumValue c.constvalue, true)
  match prune.greaterConsts with
  | none => lowerBound
  | some greaterConsts =>
      let value := cacheEntry.datumValue greaterConsts.constvalue
      match lowerBound with
      | some (bound, _) => if compare value bound ≠ .lt then some (value, false) else lowerBound
      | none => some (value, false)

/-- The upper bound `PruneWithBoundaries` searches with: the `<=` constant, or the
`<` constant when there is no `<=` one or it is at most as large. -/
def pruneUpperBound (prune : PruningInstance β) : Option (α × Bool) :=
  let upperBound := prune.lessEqualConsts.map fun c => (cacheEntry.datumValue c.constvalue, true)
  match prune.lessConsts with
  | none => upperBound
  | some lessConsts =>
      let value := cacheEntry.datumValue lessConsts.constvalue
      match upperBound with
      | some (bound, _) => if compare value bound ≠ .gt then some (value, false) else upperBound
      | none => some (value, false)

/-- `PruneWithBoundaries`: the shards from the lower boundary to the upper one. -/
def pruneWithBoundaries (prune : PruningInstance β) : List (ShardInterval α) :=
  let sortedShardIntervalArray := cacheEntry.sortedShardIntervalArray
  let shardCount := sortedShardIntervalArray.length
  let lowerBoundIdx := match pruneLowerBound cacheEntry prune with
    | some (lowerBound, lowerBoundInclusive) =>
        lowerShardBoundary lowerBound sortedShardIntervalArray shardCount lowerBoundInclusive
    | none => some 0
  let upperBoundIdx := match pruneUpperBound cacheEntry prune with
    | some (upperBound, upperBoundInclusive) =>
        upperShardBoundary upperBound sortedShardIntervalArray shardCount upperBoundInclusive
    | none => some (shardCount - 1)
  match lowerBoundIdx, upperBoundIdx with
  | some lowerBoundIdx, some upperBoundIdx =>
      (sortedShardIntervalArray.take (upperBoundIdx + 1)).drop lowerBoundIdx
  | _, _ => []

/-- `ExhaustivePruneOne`: whether a restriction of the instance rules the interval
out. An interval with a missing bound is never ruled out. -/
def exhaustivePruneOne (curInterval : ShardInterval α) (prune : PruningInstance β) : Bool :=
  match curInterval.minValue, curInterval.maxValue with
  | some minValue, some maxValue =>
      let value (c : Const β) := cacheEntry.datumValue c.constvalue
      prune.equalConsts.any (fun c =>
          compare (value c) minValue = .lt || compare (value c) maxValue = .gt) ||
        prune.greaterEqualConsts.any (fun c => compare maxValue (value c) = .lt) ||
        prune.greaterConsts.any (fun c => compare maxValue (value c) ≠ .gt) ||
        prune.lessEqualConsts.any (fun c => compare minValue (value c) = .gt) ||
        prune.lessConsts.any (fun c => compare minValue (value c) ≠ .lt)
  | _, _ => false

/-- `ExhaustivePrune`. -/
def exhaustivePrune (prune : PruningInstance β) : List (ShardInterval α) :=
  cacheEntry.sortedShardIntervalArray.filter fun curInterval =>
    !exhaustivePruneOne cacheEntry curInterval prune

/-- The bounds `PruneOne` checks before choosing `PruneWithBoundaries`. -/
def hasRangeRestriction (prune : PruningInstance β) : Bool :=
  prune.greaterConsts.isSome || prune.greaterEqualConsts.isSome || prune.lessConsts.isSome ||
    prune.lessEqualConsts.isSome

/-- `PruneOne`. -/
def pruneOne (prune : PruningInstance β) : Except String (List (ShardInterval α)) := do
  if prune.evaluatesToFalse then return []
  -- the equality's shard, when intervals do not overlap
  let shardInterval ← match prune.equalConsts with
    | some equalConsts =>
        if !cacheEntry.hasOverlappingShardIntervalFlag then
          findShardInterval cacheEntry equalConsts.constvalue
        else pure none
    | none => pure none
  if prune.equalConsts.isSome && !cacheEntry.hasOverlappingShardIntervalFlag &&
      shardInterval.isNone then
    return []
  match prune.hashedEqualConsts with
  | some hashedEqualConsts =>
      let shardIndex ← findShardIntervalIndex cacheEntry
        (cacheEntry.datumValue hashedEqualConsts.constvalue)
      match shardIndex.bind fun i => cacheEntry.sortedShardIntervalArray[i]? with
      | none => return []
      | some hashedShardInterval =>
          -- two equalities that name different shards
          if shardInterval.any (·.shardId != hashedShardInterval.shardId) then return []
          else return [hashedShardInterval]
  | none =>
      match shardInterval with
      | some shardInterval =>
          if cacheEntry.partitionMethod ≠ .hash && exhaustivePruneOne cacheEntry shardInterval prune
          then return []
          else return [shardInterval]
      | none =>
          if !cacheEntry.hasOverlappingShardIntervalFlag && hasRangeRestriction prune then
            return pruneWithBoundaries cacheEntry prune
          else return exhaustivePrune cacheEntry prune

end PruneOne

section PruneShards

variable {β α : Type} [LinearOrder β] [LinearOrder α] [Inhabited α] [DecidableEq α]

/-- `list_union_ptr`: the first list, then the members of the second it lacks. -/
def listUnionPtr (list1 list2 : List (ShardInterval α)) : List (ShardInterval α) :=
  list2.foldl (fun result shard => if shard ∈ result then result else result ++ [shard]) list1

variable (cacheEntry : CitusTableCacheEntry β α)

/-- The loop of `PruneShards` over the pruning instances, with the shards found
so far and `foundRestriction`. Partial instances are skipped; an instance that
cannot prune stops the loop with `foundRestriction` false. -/
def pruneInstances (instances : List (PruningInstance β)) :
    List Nat → List (ShardInterval α) → Bool → Except String (List (ShardInterval α) × Bool)
  | [], prunedList, foundRestriction => pure (prunedList, foundRestriction)
  | index :: rest, prunedList, foundRestriction =>
      let prune := instances.getD index {}
      if prune.isPartial then pruneInstances instances rest prunedList foundRestriction
      else if !prune.hasValidConstraint then pure (prunedList, false)
      -- a hash table without equalities keeps every shard
      else if cacheEntry.partitionMethod = .hash && !prune.evaluatesToFalse &&
          prune.equalConsts.isNone && prune.hashedEqualConsts.isNone then
        pure (prunedList, false)
      else do
        let pruneOneList ← pruneOne cacheEntry prune
        let prunedList :=
          if prunedList.isEmpty then pruneOneList else listUnionPtr prunedList pruneOneList
        pruneInstances instances rest prunedList true

/-- `PruneShards`. -/
def pruneShards (catalog : OperatorCatalog β) (partitionColumn : Var)
    (whereClauseList : List (Expr β)) : Except String (List (ShardInterval α)) := do
  let sortedShardIntervalArray := cacheEntry.sortedShardIntervalArray
  if sortedShardIntervalArray.length = 0 then return []
  if containsFalseClause whereClauseList then return []
  if !cacheEntry.hasDistributionKey then return sortedShardIntervalArray
  let tree := buildPruningTreeList catalog partitionColumn (createPruningNode .andExpr)
    whereClauseList
  let tree := simplifyPruningTree tree
  let context := prunableExpressions catalog partitionColumn tree
  let (prunedList, foundRestriction) ←
    pruneInstances cacheEntry context.instances context.pruningInstances [] false
  -- found no valid restriction: every shard
  if !foundRestriction then return sortedShardIntervalArray
  return prunedList


/-- The `int4` operators `=` (oid 96) and `<` (oid 97). -/
def int4Catalog : OperatorCatalog Int where
  btreeInterpretation
    | 96 => [.equal]
    | 97 => [.less]
    | _ => []
  implementsEquality opno := opno == 96
  apply
    | 96 => fun a b => decide (a = b)
    | 97 => fun a b => decide (a < b)
    | _ => fun _ _ => false

theorem int4Catalog_lawful : int4Catalog.Lawful where
  apply_of_mem := by
    intro opno s hs a b
    rw [StrategyNumber.test_compare]
    match opno, s, hs with
    | 96, .equal, _ => rfl
    | 97, .less, _ => rfl
  apply_of_implementsEquality := by
    intro opno h a b
    obtain rfl : opno = 96 := by simpa [int4Catalog] using h
    rfl

/-- A range-distributed table on an `int` column with shards `[0, 4]` and `[5, 9]`. -/
def twoRangeCacheEntry : CitusTableCacheEntry Int Int where
  partitionMethod := .range
  hashFunction := id
  datumValue := id
  datumGetInt32 := id
  sortedShardIntervalArray := [⟨1, some 0, some 4⟩, ⟨2, some 5, some 9⟩]
  sorted := by unfold SortedShardIntervals; decide
  hash_consistent := fun h => nomatch h
  none_single := fun h => nomatch h
  datumValue_compare := fun _ _ _ => rfl
  datumGetInt32_compare := fun h => nomatch h
  hashFunction_inInt32 := fun h => nomatch h
  shardCount_le := by decide

theorem findShardInterval_correct_twoRange :
    twoRangeCacheEntry.hasDistributionKey = true ∧
      Separated twoRangeCacheEntry.sortedShardIntervalArray ∧
      (twoRangeCacheEntry.partitionMethod = .hash →
        twoRangeCacheEntry.sortedShardIntervalArray.length ≤ maxShardCount) ∧
      (∀ s, findShardInterval twoRangeCacheEntry 7 = .ok (some s) →
        s ∈ twoRangeCacheEntry.sortedShardIntervalArray ∧
          s.Contains (twoRangeCacheEntry.searchedValue 7)) ∧
      (findShardInterval twoRangeCacheEntry 7 = .ok none →
        ∀ s ∈ twoRangeCacheEntry.sortedShardIntervalArray,
          ¬ s.Contains (twoRangeCacheEntry.searchedValue 7)) ∧
      (∀ msg, findShardInterval twoRangeCacheEntry 7 = .error msg →
        ∀ s ∈ twoRangeCacheEntry.sortedShardIntervalArray,
          ¬ s.Contains (twoRangeCacheEntry.searchedValue 7)) := by
  have hsep := twoRangeCacheEntry.separated_of_flag (by decide)
  have hcount : twoRangeCacheEntry.partitionMethod = .hash →
      twoRangeCacheEntry.sortedShardIntervalArray.length ≤ maxShardCount := by decide
  exact ⟨rfl, hsep, hcount, findShardInterval_correct twoRangeCacheEntry rfl hsep hcount 7⟩

/-- A range table whose one shard has min value `5` and max value `3`. -/
def invertedRangeCacheEntry : CitusTableCacheEntry Int Int where
  partitionMethod := .range
  hashFunction := id
  datumValue := id
  datumGetInt32 := id
  sortedShardIntervalArray := [⟨1, some 5, some 3⟩]
  sorted := by unfold SortedShardIntervals; decide
  hash_consistent := fun h => nomatch h
  none_single := fun h => nomatch h
  datumValue_compare := fun _ _ _ => rfl
  datumGetInt32_compare := fun h => nomatch h
  hashFunction_inInt32 := fun h => nomatch h
  shardCount_le := by decide

/-- `WHERE 5 < col` on the table with shards `[0, 4]` and `[5, 9]`: the row with
`col = 7` satisfies it and lies in the second shard, but `PruneShards` keeps only
the first. `VarConstOpExprClause` accepts the constant on the left, and
`AddPartitionKeyRestrictionToInstance` then reads the operator's strategy `<` as
`col < 5`. -/
theorem pruneShards_const_left_drops_shard :
    int4Catalog.Lawful ∧
      Satisfies int4Catalog ⟨1, 1⟩ ⟨7, fun _ => none⟩
        [.opExpr 97 [.const ⟨5, false⟩, .var ⟨1, 1⟩]] ∧
      (⟨2, some 5, some 9⟩ : ShardInterval Int) ∈ twoRangeCacheEntry.sortedShardIntervalArray ∧
      ShardInterval.Contains ⟨2, some 5, some 9⟩ (twoRangeCacheEntry.searchedValue 7) ∧
      pruneShards twoRangeCacheEntry int4Catalog ⟨1, 1⟩
        [.opExpr 97 [.const ⟨5, false⟩, .var ⟨1, 1⟩]] = .ok [⟨1, some 0, some 4⟩] := by
  refine ⟨int4Catalog_lawful, ?_, by decide, ?_, by decide +kernel⟩
  · intro e he
    rw [List.mem_singleton.mp he]
    decide +kernel
  · exact ⟨5, 9, rfl, rfl, by decide, by decide⟩

end PruneShards

end Citus.Shard
