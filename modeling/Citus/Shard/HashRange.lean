import Citus.Shard.Interval
import Mathlib

/-!
# Equal hash ranges and the paths that reproduce them

A hash-distributed table with `n` shards gives shard `i` the `i`-th of `n` equal
ranges of the `int32` hash space, the last one extended to `PG_INT32_MAX`. Four
places of the source compute these ranges on their own: shard creation
(`CreateShardsWithRoundRobinPolicy`), the repartition buckets
(`GenerateSyntheticShardIntervalArray`), the uniformity test of the metadata cache
(`HasUniformHashDistribution`) and the split points that
`create_distributed_table_concurrently` hands to the shard split
(`HashSplitPointsForShardCount`, `HashSplitPointsForShardList`, then
`CreateSplitIntervalsForShard`).

The first three share `uniformHashRange`. We show that for `n ≤ 2 ^ 32` its
`uint64`/`int32` arithmetic does not wrap, so that it is the exact range
`mathHashRange`, that the ranges partition the `int32` line, and that splitting
the whole hash space at the max values of any partition gives that partition back.
-/

namespace Citus.Shard

open MachineInt

/-- `MAX_SHARD_COUNT`. -/
def maxShardCount : Nat := 64000

/-- `INVALID_SHARD_ID`. -/
def invalidShardId : Nat := 0

section Partition

/-- `ranges`, in order, are non-empty and contiguous, the first starts at `lo` and
the last ends at `PG_INT32_MAX`. -/
def CoversFrom : Int → List (Int × Int) → Prop
  | lo, [] => lo = int32Max + 1
  | lo, r :: rest => r.1 = lo ∧ r.1 ≤ r.2 ∧ CoversFrom (r.2 + 1) rest

instance decCoversFrom : (lo : Int) → (ranges : List (Int × Int)) →
    Decidable (CoversFrom lo ranges)
  | lo, [] => inferInstanceAs (Decidable (lo = int32Max + 1))
  | lo, r :: rest =>
      have := decCoversFrom (r.2 + 1) rest
      inferInstanceAs (Decidable (r.1 = lo ∧ r.1 ≤ r.2 ∧ CoversFrom (r.2 + 1) rest))

/-- `ranges` split `[PG_INT32_MIN, PG_INT32_MAX]` into contiguous non-empty
ranges in index order. -/
def PartitionsInt32 (ranges : List (Int × Int)) : Prop :=
  ranges ≠ [] ∧ CoversFrom int32Min ranges

instance (ranges : List (Int × Int)) : Decidable (PartitionsInt32 ranges) :=
  inferInstanceAs (Decidable (_ ∧ _))

/-- Every range of a cover from `lo` starts at `lo` or later and ends at
`PG_INT32_MAX` or earlier. -/
theorem CoversFrom.bounds : ∀ {lo : Int} {ranges : List (Int × Int)},
    CoversFrom lo ranges → ∀ r ∈ ranges, lo ≤ r.1 ∧ r.2 ≤ int32Max
  | _, [], _ => by simp
  | lo, s :: rest, ⟨hs₁, hs₂, hrest⟩ => by
      intro r hr
      rcases List.mem_cons.mp hr with rfl | hr
      · -- the next range, or the end marker, lies just after `r`
        cases rest with
        | nil =>
            have hend : r.2 + 1 = int32Max + 1 := hrest
            omega
        | cons t rest' =>
            have ht := CoversFrom.bounds hrest t List.mem_cons_self
            have : t.1 ≤ t.2 := hrest.2.1
            omega
      · have := CoversFrom.bounds hrest r hr
        omega

end Partition

section Arithmetic

/-- `n` equal ranges have a positive length and fit in the hash space. -/
theorem hashTokenIncrement_bounds {n : Nat} (hn : 0 < n) (hle : n ≤ hashTokenCount) :
    0 < hashTokenCount / n ∧ n * (hashTokenCount / n) ≤ hashTokenCount :=
  ⟨Nat.div_pos hle hn, Nat.mul_div_le hashTokenCount n⟩

/-- Without wrap-around the first token of range `i` is `PG_INT32_MIN + i * q`. -/
theorem shardMinHashToken_eq {q i : Nat} (h : i * q < hashTokenCount) :
    shardMinHashToken q i = int32Min + i * q := by
  have h' : (i : Int) * q < 2 ^ 32 := by exact_mod_cast h
  have hiq : (0 : Int) ≤ i * q := by exact_mod_cast Nat.zero_le (i * q)
  unfold shardMinHashToken
  rw [toInt32_toUInt64, toInt32_of_inInt32]
  unfold InInt32 int32Min int32Max
  omega

/-- Without wrap-around the last token of range `i` is `PG_INT32_MIN + i * q + q - 1`. -/
theorem shardMaxHashToken_eq {q i : Nat} (hq : 0 < q) (h : i * q + q ≤ hashTokenCount) :
    shardMaxHashToken q i = int32Min + i * q + q - 1 := by
  have h' : (i : Int) * q + q ≤ 2 ^ 32 := by exact_mod_cast h
  have hiq : (0 : Int) ≤ i * q := by exact_mod_cast Nat.zero_le (i * q)
  have hq' : (0 : Int) < q := by exact_mod_cast hq
  -- the increment minus one is already a `uint64`
  have hinc : toUInt64 ((q : Int) - 1) = q - 1 := by
    unfold toUInt64
    omega
  unfold shardMaxHashToken
  rw [shardMinHashToken_eq (by omega), hinc, toInt32_toUInt64, toInt32_of_inInt32]
  · ring
  · unfold InInt32 int32Min int32Max
    omega

/-- The range of shard `i` of `n` in exact integer arithmetic. -/
def mathHashRange (n i : Nat) : Int × Int :=
  let q := hashTokenCount / n
  (int32Min + i * q, if i = n - 1 then int32Max else int32Min + i * q + q - 1)

variable {n : Nat}

/-- For at most `2 ^ 32` ranges the source's arithmetic does not wrap. -/
theorem uniformHashRange_eq_mathHashRange (hn : 0 < n) (hle : n ≤ hashTokenCount)
    {i : Nat} (hi : i < n) : uniformHashRange n i = mathHashRange n i := by
  obtain ⟨hq, hnq⟩ := hashTokenIncrement_bounds hn hle
  have hiq : i * (hashTokenCount / n) + hashTokenCount / n ≤ hashTokenCount :=
    calc i * (hashTokenCount / n) + hashTokenCount / n
        = (i + 1) * (hashTokenCount / n) := (Nat.succ_mul i _).symm
      _ ≤ n * (hashTokenCount / n) := Nat.mul_le_mul_right _ hi
      _ ≤ hashTokenCount := hnq
  unfold uniformHashRange mathHashRange
  dsimp only
  rw [shardMinHashToken_eq (by omega)]
  split_ifs
  · rfl
  · rw [shardMaxHashToken_eq hq hiq]

/-- The `n` ranges in index order, as the source computes them. -/
def hashRanges (n : Nat) : List (Int × Int) :=
  (List.range n).map (uniformHashRange n)

theorem hashRanges_eq_mathHashRange (hn : 0 < n) (hle : n ≤ hashTokenCount) :
    hashRanges n = (List.range n).map (mathHashRange n) :=
  List.map_congr_left fun _ hi =>
    uniformHashRange_eq_mathHashRange hn hle (List.mem_range.mp hi)

/-- The exact ranges from index `j` on cover the hash space from the first
token of range `j`. The induction is on the number `k` of ranges left. -/
theorem coversFrom_mathHashRange (hn : 0 < n) (hle : n ≤ hashTokenCount) :
    ∀ k j, j + k = n → 0 < k →
      CoversFrom (int32Min + j * (hashTokenCount / n))
        ((List.range' j k).map (mathHashRange n)) := by
  obtain ⟨hq, hnq⟩ := hashTokenIncrement_bounds hn hle
  intro k
  induction k with
  | zero => intro j _ hk; omega
  | succ k ih =>
      intro j hjk _
      have hjq : j * (hashTokenCount / n) + hashTokenCount / n ≤ hashTokenCount :=
        calc j * (hashTokenCount / n) + hashTokenCount / n
            = (j + 1) * (hashTokenCount / n) := (Nat.succ_mul j _).symm
          _ ≤ n * (hashTokenCount / n) := Nat.mul_le_mul_right _ (by omega)
          _ ≤ hashTokenCount := hnq
      have hjq' : (j : Int) * (hashTokenCount / n : Nat) + (hashTokenCount / n : Nat) ≤ 2 ^ 32 := by
        exact_mod_cast hjq
      have hq' : (0 : Int) < (hashTokenCount / n : Nat) := by exact_mod_cast hq
      rw [List.range'_succ, List.map_cons]
      cases k with
      | zero =>
          -- the last range ends at `PG_INT32_MAX`
          have hlast : j = n - 1 := by omega
          simp only [mathHashRange, hlast, if_true, List.range'_zero, List.map_nil]
          refine ⟨rfl, ?_, rfl⟩
          rw [← hlast]
          unfold int32Min int32Max
          omega
      | succ k =>
          -- an inner range ends one token before the next one starts
          have hinner : j ≠ n - 1 := by omega
          have hnext := ih (j + 1) (by omega) (by omega)
          simp only [mathHashRange, hinner, if_false]
          refine ⟨rfl, by omega, ?_⟩
          have hstart : int32Min + ((j + 1 : Nat) : Int) * (hashTokenCount / n : Nat) =
              int32Min + j * (hashTokenCount / n : Nat) + (hashTokenCount / n : Nat) - 1 + 1 := by
            push_cast
            ring
          rw [← hstart]
          exact hnext

/-- The `n` ranges partition `[PG_INT32_MIN, PG_INT32_MAX]`. -/
theorem partitionsInt32_hashRanges (hn : 0 < n) (hle : n ≤ hashTokenCount) :
    PartitionsInt32 (hashRanges n) := by
  rw [hashRanges_eq_mathHashRange hn hle]
  constructor
  · simpa using Nat.pos_iff_ne_zero.mp hn
  · have h := coversFrom_mathHashRange hn hle n 0 (Nat.zero_add n) hn
    rw [List.range_eq_range']
    simpa using h

end Arithmetic

section Creation

/-- The `pg_dist_shard` row of a new shard, with the group ids of its placements. -/
structure ShardRow where
  shardId : Nat
  shardMinValue : Int
  shardMaxValue : Int
  placementGroupIds : List Nat
  deriving DecidableEq, Repr

/-- `InsertShardPlacementRows`: `replicationFactor` consecutive workers of the sorted
worker list, wrapping around, from `workerStartIndex` on. -/
def insertShardPlacementRows (workerGroupIds : List Nat) (workerStartIndex replicationFactor : Nat) :
    List Nat :=
  (List.range replicationFactor).map fun placementIndex =>
    workerGroupIds.getD ((workerStartIndex + placementIndex) % workerGroupIds.length) 0

/-- `CreateShardsWithRoundRobinPolicy`, after the table checks: the errors it
raises and otherwise the shard rows it inserts. `nextShardId k` is the value the
`k`-th call of `GetNextShardId` returns; `workerGroupIds` is the sorted worker list. -/
def createShardsWithRoundRobinPolicy (tableName : String) (existingShardCount : Nat)
    (streamingReplicated : Bool) (workerGroupIds : List Nat) (nextShardId : Nat → Nat)
    (shardCount replicationFactor : Int) : Except String (List ShardRow) :=
  if existingShardCount ≠ 0 then
    .error ("table \"" ++ tableName ++ "\" has already had shards created for it")
  else if shardCount ≤ 0 then .error "shard_count must be positive"
  else if replicationFactor ≤ 0 then .error "replication_factor must be positive"
  else if streamingReplicated ∧ replicationFactor > 1 then
    .error ("using replication factor " ++ toString replicationFactor ++
      " with the streaming replication model is not supported")
  else if replicationFactor > workerGroupIds.length then
    .error ("replication_factor (" ++ toString replicationFactor ++
      ") exceeds number of worker nodes (" ++ toString workerGroupIds.length ++ ")")
  else
    .ok ((List.range shardCount.toNat).map fun shardIndex =>
      let range := uniformHashRange shardCount.toNat shardIndex
      { shardId := nextShardId shardIndex
        shardMinValue := range.1
        shardMaxValue := range.2
        placementGroupIds := insertShardPlacementRows workerGroupIds
          (shardIndex % workerGroupIds.length) replicationFactor.toNat })

/-- `GenerateSyntheticShardIntervalArray`. -/
def generateSyntheticShardIntervalArray (partitionCount : Nat) : List (ShardInterval Int) :=
  (List.range partitionCount).map fun shardIndex =>
    let range := uniformHashRange partitionCount shardIndex
    { shardId := invalidShardId, minValue := some range.1, maxValue := some range.2 }

/-- The shard rows of a successful creation carry the `n` ranges. -/
theorem createShardsWithRoundRobinPolicy_ranges {tableName : String} {existingShardCount : Nat}
    {streamingReplicated : Bool} {workerGroupIds : List Nat} {nextShardId : Nat → Nat}
    {shardCount replicationFactor : Int} {rows : List ShardRow}
    (h : createShardsWithRoundRobinPolicy tableName existingShardCount streamingReplicated
      workerGroupIds nextShardId shardCount replicationFactor = .ok rows) :
    rows.map (fun row => (row.shardMinValue, row.shardMaxValue)) = hashRanges shardCount.toNat := by
  unfold createShardsWithRoundRobinPolicy at h
  split_ifs at h
  cases h
  simp [hashRanges]

theorem generateSyntheticShardIntervalArray_bounds (n : Nat) :
    (generateSyntheticShardIntervalArray n).map ShardInterval.bounds =
      (hashRanges n).map some := by
  simp [generateSyntheticShardIntervalArray, hashRanges, ShardInterval.bounds]

end Creation

section Split

/-- `HashSplitPointsForShardCount`: the last token of every range but the last,
without the correction of the last range. -/
def hashSplitPointsForShardCount (shardCount : Nat) : List Int :=
  (List.range (shardCount - 1)).map (shardMaxHashToken (hashTokenCount / shardCount))

/-- `HashSplitPointsForShardList`: the max value of every shard but the last; a
missing max value is read as the zero `Datum`. -/
def hashSplitPointsForShardList (shardList : List (ShardInterval Int)) : List Int :=
  (shardList.map fun s => s.maxValue.getD 0).dropLast

/-- The loop of `CreateSplitIntervalsForShard` from child `index` on, whose min
value is `currentSplitChildMinValue`. `childShardId index` is the id that
`GetNextShardIdForSplitChild` hands out for it. The next min value is the max
plus one as a `Datum`, stored back into an `int32`. -/
def splitChildIntervals (splitParentMaxValue : Int) (childShardId : Nat → Nat) :
    Nat → Int → List Int → List (ShardInterval Int)
  | index, currentSplitChildMinValue, [] =>
      [{ shardId := childShardId index, minValue := some currentSplitChildMinValue,
         maxValue := some splitParentMaxValue }]
  | index, currentSplitChildMinValue, splitPoint :: rest =>
      { shardId := childShardId index, minValue := some currentSplitChildMinValue,
        maxValue := some splitPoint } ::
        splitChildIntervals splitParentMaxValue childShardId (index + 1)
          (toInt32 (splitPoint + 1)) rest

/-- `CreateSplitIntervalsForShard`: a source without bounds (a Citus local table)
is split as the whole hash space. -/
def createSplitIntervalsForShard (sourceShard : ShardInterval Int)
    (splitPointsForShard : List Int) (childShardId : Nat → Nat) : List (ShardInterval Int) :=
  splitChildIntervals (sourceShard.maxValue.getD int32Max) childShardId 0
    (sourceShard.minValue.getD int32Min) splitPointsForShard

/-- The source shard of a split covers the whole hash space: its bounds are
`PG_INT32_MIN` and `PG_INT32_MAX`, or absent. -/
def CoversHashSpace (s : ShardInterval Int) : Prop :=
  (s.minValue = some int32Min ∨ s.minValue = none) ∧
    (s.maxValue = some int32Max ∨ s.maxValue = none)

theorem createSplitIntervalsForShard_of_coversHashSpace {sourceShard : ShardInterval Int}
    (h : CoversHashSpace sourceShard) (splitPoints : List Int) (childShardId : Nat → Nat) :
    createSplitIntervalsForShard sourceShard splitPoints childShardId =
      splitChildIntervals int32Max childShardId 0 int32Min splitPoints := by
  obtain ⟨hmin | hmin, hmax | hmax⟩ := h <;> simp [createSplitIntervalsForShard, hmin, hmax]

/-- Splitting the rest of the hash space from `lo` at the ends of all ranges of
a cover but the last gives the cover back. The induction is on the cover; each
split point plus one is the next range's start, so the `int32` store keeps it. -/
theorem splitChildIntervals_bounds (childShardId : Nat → Nat) :
    ∀ {ranges : List (Int × Int)} {lo : Int} {index : Nat}, CoversFrom lo ranges →
      ranges ≠ [] → int32Min ≤ lo →
      (splitChildIntervals int32Max childShardId index lo
        (ranges.map Prod.snd).dropLast).map ShardInterval.bounds = ranges.map some
  | [], _, _, _, hne, _ => absurd rfl hne
  | [r], lo, index, ⟨hr₁, _, hend⟩, _, _ => by
      have hend' : r.2 = int32Max := by
        have : r.2 + 1 = int32Max + 1 := hend
        omega
      simp [splitChildIntervals, ShardInterval.bounds, ← hr₁, ← hend']
  | r :: s :: rest, lo, index, ⟨hr₁, hr₂, hrest⟩, _, hlo => by
      have hs := CoversFrom.bounds hrest s List.mem_cons_self
      have hs₂ : s.1 ≤ s.2 := hrest.2.1
      have hnext : toInt32 (r.2 + 1) = r.2 + 1 := by
        apply toInt32_of_inInt32
        unfold InInt32
        omega
      have ih := @splitChildIntervals_bounds childShardId (s :: rest) (r.2 + 1) (index + 1) hrest
        (List.cons_ne_nil s rest) (by omega)
      rw [List.map_cons, List.dropLast_cons_of_ne_nil (by simp), splitChildIntervals, hnext,
        List.map_cons, ih]
      simp [ShardInterval.bounds, ← hr₁]

/-- Intervals with the given bounds have their second components as max values. -/
theorem maxValues_of_bounds :
    ∀ {shardList : List (ShardInterval Int)} {ranges : List (Int × Int)},
      shardList.map ShardInterval.bounds = ranges.map some →
      shardList.map (fun s => s.maxValue.getD 0) = ranges.map Prod.snd
  | [], [], _ => rfl
  | [], _ :: _, h => by simp at h
  | _ :: _, [], h => by simp at h
  | s :: shardList, r :: ranges, h => by
      simp only [List.map_cons, List.cons.injEq] at h ⊢
      refine ⟨?_, maxValues_of_bounds h.2⟩
      rw [(ShardInterval.bounds_eq_some_iff.mp h.1).2]
      rfl

/-- The split points of a shard list are the max values of its bounds but the last. -/
theorem hashSplitPointsForShardList_of_bounds {shardList : List (ShardInterval Int)}
    {ranges : List (Int × Int)} (h : shardList.map ShardInterval.bounds = ranges.map some) :
    hashSplitPointsForShardList shardList = (ranges.map Prod.snd).dropLast := by
  unfold hashSplitPointsForShardList
  rw [maxValues_of_bounds h]

/-- The split points for `n` shards are the ends of the `n` ranges but the last. -/
theorem hashSplitPointsForShardCount_eq {n : Nat} (hn : 0 < n) :
    hashSplitPointsForShardCount n = ((hashRanges n).map Prod.snd).dropLast := by
  obtain ⟨m, rfl⟩ : ∃ m, n = m + 1 := ⟨n - 1, by omega⟩
  unfold hashSplitPointsForShardCount hashRanges
  rw [List.range_succ, List.map_append, List.map_append, List.map_singleton,
    List.map_singleton, List.dropLast_concat, List.map_map, Nat.add_sub_cancel]
  -- below the last index the range's end is the uncorrected token
  refine List.map_congr_left fun i hi => ?_
  have hne : i ≠ m := Nat.ne_of_lt (List.mem_range.mp hi)
  simp [uniformHashRange, hne]

end Split

section Intervals

/-- In a cover every range is non-empty and ends before every later range starts. -/
theorem CoversFrom.pairwise : ∀ {lo : Int} {ranges : List (Int × Int)},
    CoversFrom lo ranges → ranges.Pairwise fun x y => x.1 ≤ x.2 ∧ x.2 < y.1
  | _, [], _ => List.Pairwise.nil
  | _, r :: rest, ⟨_, hr, hrest⟩ => by
      refine List.Pairwise.cons (fun s hs => ⟨hr, ?_⟩) (CoversFrom.pairwise hrest)
      have := (CoversFrom.bounds hrest s hs).1
      omega

variable {arr : List (ShardInterval Int)} {ranges : List (Int × Int)}

theorem bounds_of_mem (h : arr.map ShardInterval.bounds = ranges.map some)
    {s : ShardInterval Int} (hs : s ∈ arr) : ∃ r ∈ ranges, s.bounds = some r := by
  have hmem : s.bounds ∈ ranges.map some := h ▸ List.mem_map_of_mem hs
  obtain ⟨r, hr, heq⟩ := List.mem_map.mp hmem
  exact ⟨r, hr, heq.symm⟩

/-- A relation between intervals that follows from the order of their bounds
holds pairwise on intervals whose bounds are ordered ranges. -/
theorem pairwise_of_bounds {R : ShardInterval Int → ShardInterval Int → Prop}
    (hR : ∀ a b x y, a.bounds = some x → b.bounds = some y → x.1 ≤ x.2 → x.2 < y.1 → R a b)
    (h : arr.map ShardInterval.bounds = ranges.map some)
    (hp : ranges.Pairwise fun x y => x.1 ≤ x.2 ∧ x.2 < y.1) : arr.Pairwise R := by
  have hmap : (arr.map ShardInterval.bounds).Pairwise
      fun u w => ∀ x y, u = some x → w = some y → x.1 ≤ x.2 ∧ x.2 < y.1 := by
    rw [h, List.pairwise_map]
    exact hp.imp fun hxy x y hx hy => by
      cases hx
      cases hy
      exact hxy
  refine (List.pairwise_map.mp hmap).imp_of_mem fun ha hb hab => ?_
  obtain ⟨x, -, hx⟩ := bounds_of_mem h ha
  obtain ⟨y, -, hy⟩ := bounds_of_mem h hb
  obtain ⟨hx₁, hxy⟩ := hab x y hx hy
  exact hR _ _ x y hx hy hx₁ hxy

/-- Intervals whose bounds partition the `int32` line are sorted, complete and
separated, so the cache builder accepts them. -/
theorem sorted_separated_of_partitionsInt32 (h : arr.map ShardInterval.bounds = ranges.map some)
    (hpart : PartitionsInt32 ranges) : SortedShardIntervals arr ∧ Separated arr := by
  have hp := hpart.2.pairwise
  have hnull : ∀ s ∈ arr, s.hasNull = false := fun s hs => by
    obtain ⟨r, -, hr⟩ := bounds_of_mem h hs
    obtain ⟨hmin, hmax⟩ := ShardInterval.bounds_eq_some_iff.mp hr
    exact ShardInterval.hasNull_eq_false_iff.mpr ⟨r.1, r.2, hmin, hmax⟩
  refine ⟨pairwise_of_bounds (fun a b x y ha hb hx hxy => ?_) h hp,
    hnull, pairwise_of_bounds (fun a b x y ha hb hx hxy => ?_) h hp⟩
  · obtain ⟨hamin, hamax⟩ := ShardInterval.bounds_eq_some_iff.mp ha
    obtain ⟨hbmin, hbmax⟩ := ShardInterval.bounds_eq_some_iff.mp hb
    have hlt : compareShardIntervals a b = .lt :=
      compareShardIntervals_of_lt (ShardInterval.hasNull_eq_false_iff.mpr ⟨_, _, hamin, hamax⟩)
        (ShardInterval.hasNull_eq_false_iff.mpr ⟨_, _, hbmin, hbmax⟩) hamin hbmin
        (lt_of_le_of_lt hx hxy)
    rw [hlt]
    exact Ordering.noConfusion
  · obtain ⟨hamin, hamax⟩ := ShardInterval.bounds_eq_some_iff.mp ha
    obtain ⟨hbmin, hbmax⟩ := ShardInterval.bounds_eq_some_iff.mp hb
    exact ⟨x.1, x.2, y.1, y.2, hamin, hamax, hbmin, hbmax, by omega, hxy⟩

end Intervals

section Uniform

/-- `HasUniformHashDistribution` accepts every array whose bounds are the `n`
ranges. -/
theorem hasUniformHashDistribution_of_bounds {arr : List (ShardInterval Int)} {n : Nat}
    (hn : 0 < n) (h : arr.map ShardInterval.bounds = (hashRanges n).map some) :
    hasUniformHashDistribution id arr = true := by
  have hlen : arr.length = n := by
    simpa [hashRanges] using congrArg List.length h
  unfold hasUniformHashDistribution
  rw [if_neg (by omega), List.all_eq_true]
  rintro ⟨s, i⟩ hs
  have hget : arr[i]? = some s := List.mk_mem_zipIdx_iff_getElem?.mp hs
  -- the `i`-th bounds are the `i`-th range
  have hbounds : s.bounds = some (uniformHashRange n i) := by
    have hi := congrArg (fun l => l[i]?) h
    simp only [List.getElem?_map, hget, hashRanges, Option.map_some] at hi
    have hlt : i < n := by
      have := (List.getElem?_eq_some_iff.mp hget).1
      omega
    simpa [List.getElem?_range hlt] using hi
  obtain ⟨hmin, hmax⟩ := ShardInterval.bounds_eq_some_iff.mp hbounds
  simp [hmin, hmax, hlen, uniformHashRange]

end Uniform

section Agreement

/-- The four computations of the hash ranges agree. For `1 ≤ n ≤ MAX_SHARD_COUNT`
the shard rows of a table created with `n` shards, the `n` repartition buckets and
the `n` children of splitting the whole hash space at the split points for `n`
all carry the ranges `hashRanges n`; these are the exact ranges, partition the
`int32` line, and every array with these bounds passes the uniformity test. And
splitting the whole hash space at the split points of any partition gives that
partition back. -/
theorem hashRanges_agree :
    (∀ n : Nat, 1 ≤ n → n ≤ maxShardCount →
      (∀ tableName existingShardCount streamingReplicated workerGroupIds nextShardId
          replicationFactor rows,
        createShardsWithRoundRobinPolicy tableName existingShardCount streamingReplicated
          workerGroupIds nextShardId n replicationFactor = .ok rows →
        rows.map (fun row => (row.shardMinValue, row.shardMaxValue)) = hashRanges n) ∧
      (generateSyntheticShardIntervalArray n).map ShardInterval.bounds =
        (hashRanges n).map some ∧
      (∀ sourceShard childShardId, CoversHashSpace sourceShard →
        (createSplitIntervalsForShard sourceShard (hashSplitPointsForShardCount n)
          childShardId).map ShardInterval.bounds = (hashRanges n).map some) ∧
      hashRanges n = (List.range n).map (mathHashRange n) ∧
      PartitionsInt32 (hashRanges n) ∧
      (∀ arr : List (ShardInterval Int), arr.map ShardInterval.bounds = (hashRanges n).map some →
        hasUniformHashDistribution id arr = true)) ∧
    (∀ (shardList : List (ShardInterval Int)) (ranges : List (Int × Int)) sourceShard
        childShardId,
      shardList.map ShardInterval.bounds = ranges.map some → PartitionsInt32 ranges →
      CoversHashSpace sourceShard →
      (createSplitIntervalsForShard sourceShard (hashSplitPointsForShardList shardList)
        childShardId).map ShardInterval.bounds = ranges.map some) := by
  -- splitting at the split points of a partition reproduces it
  have hsplit : ∀ (ranges : List (Int × Int)) sourceShard childShardId,
      PartitionsInt32 ranges → CoversHashSpace sourceShard →
      (createSplitIntervalsForShard sourceShard (ranges.map Prod.snd).dropLast
        childShardId).map ShardInterval.bounds = ranges.map some := by
    rintro ranges sourceShard childShardId ⟨hne, hcover⟩ hsource
    rw [createSplitIntervalsForShard_of_coversHashSpace hsource]
    exact splitChildIntervals_bounds childShardId hcover hne (Int.le_refl _)
  refine ⟨fun n hn hmax => ?_, ?_⟩
  · have hle : n ≤ hashTokenCount := by
      unfold maxShardCount at hmax
      unfold hashTokenCount
      omega
    have hpart := partitionsInt32_hashRanges hn hle
    refine ⟨?_, generateSyntheticShardIntervalArray_bounds n, ?_,
      hashRanges_eq_mathHashRange hn hle, hpart, fun arr h =>
        hasUniformHashDistribution_of_bounds hn h⟩
    · intro tableName existingShardCount streamingReplicated workerGroupIds nextShardId
        replicationFactor rows h
      simpa using createShardsWithRoundRobinPolicy_ranges h
    · intro sourceShard childShardId hsource
      rw [hashSplitPointsForShardCount_eq hn]
      exact hsplit _ sourceShard childShardId hpart hsource
  · intro shardList ranges sourceShard childShardId hbounds hpart hsource
    rw [hashSplitPointsForShardList_of_bounds hbounds]
    exact hsplit ranges sourceShard childShardId hpart hsource

theorem hashRanges_agree_two_shards :
    PartitionsInt32 (hashRanges 2) ∧
      (createSplitIntervalsForShard ⟨1, none, none⟩
        (hashSplitPointsForShardList (generateSyntheticShardIntervalArray 2)) id).map
          ShardInterval.bounds = (hashRanges 2).map some :=
  ⟨(hashRanges_agree.1 2 (by decide) (by decide)).2.2.2.2.1,
    hashRanges_agree.2 _ _ ⟨1, none, none⟩ id (by decide) (by decide)
      ⟨Or.inr rfl, Or.inr rfl⟩⟩

end Agreement

end Citus.Shard
