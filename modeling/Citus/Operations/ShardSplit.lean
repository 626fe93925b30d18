import Citus.Shard.HashRange
import Citus.Lib.Tiling
import Mathlib

/-!
# Splitting a hash shard at split points

`citus_split_shard_by_split_points` and `isolate_tenant_to_new_shard` split a hash
shard `[lo, hi]` at a list of split points. `ErrorIfCannotSplitShardExtended` checks
the request, and `CreateSplitIntervalsForShard` builds the children: child `i` ends
at split point `i`, the last child at `hi`, and each next child starts just after
the previous one ends.

The checks accept exactly the strictly increasing split points in `[lo, hi - 1]`
with one node id per child (`errorIfCannotSplitShardExtended_eq_ok`). For such points
the `int32` stores of the construction keep every bound, so the children are the
ranges `splitChildRanges hi lo splitPoints`, and these tile `[lo, hi]`. The split
points `isolate_tenant_to_new_shard` chooses for a hash value `h` of the shard pass
the checks and leave `[h, h]` as one of the children.

## Implementation notes

* What the checks read of the table (hash distribution, `TableShardReplicationFactor`)
  is a `SplitTable`; the split itself (`SplitShard`) is not modelled past the
  children's bounds.
* `isolate_tenant_to_new_shard` computes `hashedValue - 1` in C `int` arithmetic; it
  is modelled on `Int`, which agrees with it whenever the value is above
  `PG_INT32_MIN`, as it is in both branches that subtract.
* `linitial` of the active placement list reads its first node id; a shard always has
  an active placement, and the model reads an empty list as node `0`.
-/

namespace Citus.Operations

open MachineInt Citus.Shard Tiling

/-- `SplitOperation`. -/
inductive SplitOperation
  | shardSplitApi
  | isolateTenantToNewShard
  | createDistributedTable
  deriving DecidableEq, Repr

/-- `SplitOperationName`. -/
def splitOperationName : SplitOperation → String
  | .shardSplitApi => "split"
  | .isolateTenantToNewShard => "isolate"
  | .createDistributedTable => "create"

/-- `SplitTargetName`. -/
def splitTargetName : SplitOperation → String
  | .shardSplitApi => "shard"
  | .isolateTenantToNewShard => "tenant"
  | .createDistributedTable => "distributed table"

/-- What `ErrorIfCannotSplitShardExtended` reads of the table of the shard: whether
it is hash-distributed and its `TableShardReplicationFactor`. -/
structure SplitTable where
  isHashDistributed : Bool
  relationReplicationFactor : Nat
  deriving DecidableEq, Repr

section Checks

/-- The split point loop of `ErrorIfCannotSplitShardExtended`: every point lies in
the shard's range and is not its max value, and is above the point before it
(`lastShardSplitPoint`, `none` before the first point). -/
def errorIfInvalidSplitPoints (shardId : Nat) (minValue maxValue : Int) :
    Option Int → List Int → Except String Unit
  | _, [] => .ok ()
  | lastShardSplitPoint, shardSplitPointValue :: rest =>
      if shardSplitPointValue < minValue ∨ shardSplitPointValue > maxValue then
        .error ("Split point " ++ toString shardSplitPointValue ++
          " is outside the min/max range(" ++ toString minValue ++ ", " ++
          toString maxValue ++ ") for shard id " ++ toString shardId ++ ".")
      else if maxValue = shardSplitPointValue then
        .error ("Invalid split point " ++ toString maxValue ++
          ", as split points should be inclusive. Please use " ++
          toString (toInt32 (maxValue - 1)) ++ " instead.")
      else
        match lastShardSplitPoint with
        | some lastShardSplitPointValue =>
            if shardSplitPointValue ≤ lastShardSplitPointValue then
              .error ("Invalid Split Points '" ++ toString lastShardSplitPointValue ++
                "' followed by '" ++ toString shardSplitPointValue ++
                "'. All split points should be strictly increasing.")
            else errorIfInvalidSplitPoints shardId minValue maxValue (some shardSplitPointValue) rest
        | none => errorIfInvalidSplitPoints shardId minValue maxValue (some shardSplitPointValue) rest

/-- `ErrorIfCannotSplitShardExtended`. -/
def errorIfCannotSplitShardExtended (splitOperation : SplitOperation) (table : SplitTable)
    (shardIntervalToSplit : ShardInterval Int) (shardSplitPointsList : List Int)
    (nodeIdsForPlacementList : List Nat) : Except String Unit :=
  if splitOperation = .createDistributedTable then .ok ()
  else if !table.isHashDistributed then
    .error ("Cannot " ++ splitOperationName splitOperation ++ " " ++
      splitTargetName splitOperation ++
      " as operation is only supported for hash distributed tables.")
  else if table.relationReplicationFactor > 1 then
    .error ("Operation " ++ splitOperationName splitOperation ++ " not supported for " ++
      splitTargetName splitOperation ++ " as replication factor '" ++
      toString table.relationReplicationFactor ++ "' is greater than 1.")
  else
    let splitPointsCount := shardSplitPointsList.length
    let nodeIdsCount := nodeIdsForPlacementList.length
    let shardsCount := splitPointsCount + 1
    if nodeIdsCount ≠ shardsCount then
      .error ("Number of worker node ids should be one greater split points. " ++
        "NodeId count is '" ++ toString nodeIdsCount ++ "' and SplitPoint count is '" ++
        toString splitPointsCount ++ "'.")
    else if shardsCount > maxShardCount then
      .error ("Resulting shard count '" ++ toString shardsCount ++
        "' with split is greater than max shard count '" ++ toString maxShardCount ++
        "' limit.")
    else
      let minValue := shardIntervalToSplit.minValue.getD 0
      let maxValue := shardIntervalToSplit.maxValue.getD 0
      if minValue = maxValue then
        .error ("Cannot split shard id \"" ++ toString shardIntervalToSplit.shardId ++
          "\" as min/max range are equal: ('" ++ toString minValue ++ "', '" ++
          toString maxValue ++ "').")
      else
        errorIfInvalidSplitPoints shardIntervalToSplit.shardId minValue maxValue none
          shardSplitPointsList

variable {shardId : Nat} {minValue maxValue : Int}

/-- One round of the split point loop. -/
theorem errorIfInvalidSplitPoints_cons {last : Option Int} {p : Int} {rest : List Int} :
    errorIfInvalidSplitPoints shardId minValue maxValue last (p :: rest) = .ok () ↔
      minValue ≤ p ∧ p < maxValue ∧ (∀ l ∈ last, l < p) ∧
        errorIfInvalidSplitPoints shardId minValue maxValue (some p) rest = .ok () := by
  simp only [errorIfInvalidSplitPoints]
  split_ifs with hrange hmax
  · simp only [false_iff]
    omega
  · simp only [false_iff]
    omega
  · cases last with
    | none => simp [show minValue ≤ p ∧ p < maxValue by omega]
    | some l =>
        by_cases hle : p ≤ l
        · simp [hle]
        · simp [hle, show minValue ≤ p ∧ p < maxValue ∧ l < p by omega]

/-- The split point loop accepts exactly the points in `[minValue, maxValue - 1]`
that increase strictly from the last point on. -/
theorem errorIfInvalidSplitPoints_eq_ok :
    ∀ {last : Option Int} {points : List Int},
      errorIfInvalidSplitPoints shardId minValue maxValue last points = .ok () ↔
        (∀ p ∈ points, minValue ≤ p ∧ p < maxValue) ∧ (last.toList ++ points).Pairwise (· < ·)
  | last, [] => by cases last <;> simp [errorIfInvalidSplitPoints]
  | last, p :: rest => by
      rw [errorIfInvalidSplitPoints_cons, errorIfInvalidSplitPoints_eq_ok]
      cases last with
      | none => simp [and_assoc]
      | some l =>
          simp only [Option.mem_def, Option.some.injEq, forall_eq', Option.toList_some,
            List.singleton_append, List.pairwise_cons, List.mem_cons, forall_eq_or_imp]
          constructor
          · rintro ⟨hlo, hhi, hlp, hrest, hpr, hsorted⟩
            exact ⟨⟨⟨hlo, hhi⟩, hrest⟩, ⟨hlp, fun q hq => lt_trans hlp (hpr q hq)⟩, hpr, hsorted⟩
          · rintro ⟨⟨⟨hlo, hhi⟩, hrest⟩, ⟨hlp, _⟩, hpr, hsorted⟩
            exact ⟨hlo, hhi, hlp, hrest, hpr, hsorted⟩

variable {splitOperation : SplitOperation} {table : SplitTable}
  {shardIntervalToSplit : ShardInterval Int} {lo hi : Int}

/-- What the checks of a split that is not part of `create_distributed_table_concurrently`
accept: a hash-distributed table without replication, one node id per child, at most
`MAX_SHARD_COUNT` children, a shard of more than one value, and split points that
increase strictly inside `[lo, hi - 1]`. -/
theorem errorIfCannotSplitShardExtended_eq_ok
    (hchecked : splitOperation ≠ .createDistributedTable)
    (hmin : shardIntervalToSplit.minValue = some lo)
    (hmax : shardIntervalToSplit.maxValue = some hi)
    (shardSplitPointsList : List Int) (nodeIdsForPlacementList : List Nat) :
    errorIfCannotSplitShardExtended splitOperation table shardIntervalToSplit
        shardSplitPointsList nodeIdsForPlacementList = .ok () ↔
      table.isHashDistributed = true ∧ table.relationReplicationFactor ≤ 1 ∧
        nodeIdsForPlacementList.length = shardSplitPointsList.length + 1 ∧
        shardSplitPointsList.length + 1 ≤ maxShardCount ∧ lo ≠ hi ∧
        (∀ p ∈ shardSplitPointsList, lo ≤ p ∧ p < hi) ∧
        shardSplitPointsList.Pairwise (· < ·) := by
  unfold errorIfCannotSplitShardExtended
  simp only [hchecked, hmin, hmax, Option.getD_some, ↓reduceIte, Bool.not_eq_true']
  split_ifs with hhash hfactor hcount hshards hequal <;>
    simp only [false_iff, errorIfInvalidSplitPoints_eq_ok, Option.toList_none,
      List.nil_append] <;> grind

end Checks

section Children

/-- The children a split of `[lo, hi]` at `splitPoints` should have: child `i` ends at
split point `i` and the last one at `hi`, and each next child starts just after the
one before it ends. -/
def splitChildRanges (hi : Int) : Int → List Int → List (Int × Int)
  | lo, [] => [(lo, hi)]
  | lo, splitPoint :: rest => (lo, splitPoint) :: splitChildRanges hi (splitPoint + 1) rest

theorem length_splitChildIntervals (hi : Int) (childShardId : Nat → Nat) :
    ∀ (index : Nat) (lo : Int) (splitPoints : List Int),
      (splitChildIntervals hi childShardId index lo splitPoints).length = splitPoints.length + 1
  | _, _, [] => rfl
  | index, lo, _ :: rest => by
      simp [splitChildIntervals, length_splitChildIntervals hi childShardId (index + 1) _ rest]

/-- Where every split point plus one is an `int32`, the construction's `int32` stores
keep every bound and its children are the intended ranges. -/
theorem splitChildIntervals_eq_splitChildRanges (hi : Int) (childShardId : Nat → Nat) :
    ∀ {index : Nat} {lo : Int} {splitPoints : List Int}, (∀ p ∈ splitPoints, InInt32 (p + 1)) →
      (splitChildIntervals hi childShardId index lo splitPoints).map ShardInterval.bounds =
        (splitChildRanges hi lo splitPoints).map some
  | _, _, [], _ => rfl
  | index, lo, p :: rest, hfit => by
      have hnext : toInt32 (p + 1) = p + 1 := toInt32_of_inInt32 (hfit p List.mem_cons_self)
      have ih := @splitChildIntervals_eq_splitChildRanges hi childShardId (index + 1) (p + 1)
        rest fun q hq => hfit q (List.mem_cons_of_mem p hq)
      rw [splitChildIntervals, splitChildRanges, hnext, List.map_cons, List.map_cons, ih]
      rfl

/-- Strictly increasing split points inside `[lo, hi - 1]` cut `[lo, hi]` into the
tiling `splitChildRanges hi lo splitPoints`. -/
theorem splitChildRanges_tiles {hi : Int} : ∀ {lo : Int} {splitPoints : List Int}, lo ≤ hi →
    (∀ p ∈ splitPoints, lo ≤ p ∧ p < hi) → splitPoints.Pairwise (· < ·) →
      Tiles lo hi (splitChildRanges hi lo splitPoints)
  | lo, [], hle, _, _ => by simp [splitChildRanges, hle]
  | lo, p :: rest, _, hbounds, hsorted => by
      have hp := hbounds p List.mem_cons_self
      obtain ⟨hafter, hrest⟩ := List.pairwise_cons.mp hsorted
      refine ⟨rfl, hp.1, splitChildRanges_tiles (by omega) (fun q hq => ?_) hrest⟩
      have := hafter q hq
      have := hbounds q (List.mem_cons_of_mem p hq)
      omega

/-- Splitting a shard `[lo, hi]` of `int32` bounds at strictly increasing points inside
`[lo, hi - 1]` gives the intended children, and these tile the shard. -/
theorem createSplitIntervalsForShard_eq_splitChildRanges {sourceShard : ShardInterval Int}
    {lo hi : Int} {splitPoints : List Int}
    (hmin : sourceShard.minValue = some lo) (hmax : sourceShard.maxValue = some hi)
    (hlo : InInt32 lo) (hhi : InInt32 hi) (hle : lo ≤ hi)
    (hbounds : ∀ p ∈ splitPoints, lo ≤ p ∧ p < hi) (hsorted : splitPoints.Pairwise (· < ·))
    (childShardId : Nat → Nat) :
    (createSplitIntervalsForShard sourceShard splitPoints childShardId).map
        ShardInterval.bounds = (splitChildRanges hi lo splitPoints).map some ∧
      Tiles lo hi (splitChildRanges hi lo splitPoints) := by
  have hsource : createSplitIntervalsForShard sourceShard splitPoints childShardId =
      splitChildIntervals hi childShardId 0 lo splitPoints := by
    simp [createSplitIntervalsForShard, hmin, hmax]
  -- every split point is below `hi`, so the next child's start is an `int32`
  have hfit : ∀ p ∈ splitPoints, InInt32 (p + 1) := by
    intro p hp
    have := hbounds p hp
    unfold InInt32 at hlo hhi ⊢
    omega
  rw [hsource]
  exact ⟨splitChildIntervals_eq_splitChildRanges hi childShardId hfit,
    splitChildRanges_tiles hle hbounds hsorted⟩

/-- A split that the checks accept cuts the shard into `k + 1` children that tile it
in order, child `i` ending at split point `i` and each next one starting just after
it, all computed without an `int32` wrap. -/
theorem createSplitIntervalsForShard_tiles {splitOperation : SplitOperation}
    {table : SplitTable} {sourceShard : ShardInterval Int} {lo hi : Int}
    {splitPoints : List Int} {nodeIds : List Nat}
    (hmin : sourceShard.minValue = some lo) (hmax : sourceShard.maxValue = some hi)
    (hlo : InInt32 lo) (hhi : InInt32 hi) (hlt : lo < hi)
    (hchecked : splitOperation ≠ .createDistributedTable)
    (haccepted : errorIfCannotSplitShardExtended splitOperation table sourceShard splitPoints
      nodeIds = .ok ())
    (childShardId : Nat → Nat) :
    (createSplitIntervalsForShard sourceShard splitPoints childShardId).length =
        splitPoints.length + 1 ∧
      (createSplitIntervalsForShard sourceShard splitPoints childShardId).map
          ShardInterval.bounds = (splitChildRanges hi lo splitPoints).map some ∧
      Tiles lo hi (splitChildRanges hi lo splitPoints) := by
  obtain ⟨-, -, -, -, -, hbounds, hsorted⟩ :=
    (errorIfCannotSplitShardExtended_eq_ok hchecked hmin hmax splitPoints nodeIds).mp haccepted
  have hlength : (createSplitIntervalsForShard sourceShard splitPoints childShardId).length =
      splitPoints.length + 1 := by
    simp only [createSplitIntervalsForShard, hmin, hmax, Option.getD_some]
    exact length_splitChildIntervals hi childShardId 0 lo splitPoints
  exact ⟨hlength, createSplitIntervalsForShard_eq_splitChildRanges hmin hmax hlo hhi hlt.le
    hbounds hsorted childShardId⟩

theorem createSplitIntervalsForShard_tiles_three_children :
    createSplitIntervalsForShard ⟨7, some 0, some 100⟩ [15, 30] id =
        [⟨0, some 0, some 15⟩, ⟨1, some 16, some 30⟩, ⟨2, some 31, some 100⟩] ∧
      (createSplitIntervalsForShard ⟨7, some 0, some 100⟩ [15, 30] id).length = 3 ∧
      (createSplitIntervalsForShard ⟨7, some 0, some 100⟩ [15, 30] id).map
          ShardInterval.bounds = (splitChildRanges 100 0 [15, 30]).map some ∧
      Tiles 0 100 (splitChildRanges 100 0 [15, 30]) :=
  ⟨by decide,
    @createSplitIntervalsForShard_tiles .shardSplitApi ⟨true, 1⟩ ⟨7, some 0, some 100⟩ 0 100
      [15, 30] [1, 2, 3] rfl rfl (by decide) (by decide) (by decide)
      (by decide) rfl id⟩

end Children

section Isolation

/-- The split points `isolate_tenant_to_new_shard` chooses for the tenant's hash
value: one point where the value is a bound of the shard, the two points around it
otherwise. -/
def isolateTenantSplitPoints (shardMinValue shardMaxValue hashedValue : Int) : List Int :=
  if hashedValue = shardMinValue then [hashedValue]
  else if hashedValue = shardMaxValue then [hashedValue - 1]
  else [hashedValue - 1, hashedValue]

/-- The split `isolate_tenant_to_new_shard` asks `SplitShard` for. -/
structure SplitShardRequest where
  shardSplitPointsList : List Int
  nodeIdsForPlacementList : List Nat
  deriving DecidableEq, Repr

/-- `isolate_tenant_to_new_shard` from the tenant's shard on, with the node ids of the
shard's active placements and the tenant's hash value. -/
def isolateTenantToNewShard (tableName : String) (sourceShard : ShardInterval Int)
    (sourcePlacementList : List Nat) (hashedValue : Int) : Except String SplitShardRequest :=
  let shardMinValue := sourceShard.minValue.getD 0
  let shardMaxValue := sourceShard.maxValue.getD 0
  if shardMinValue = shardMaxValue then
    .error ("table " ++ tableName ++ " has already been isolated for the given value")
  else if sourcePlacementList.length > 1 then
    .error "cannot isolate tenants when using shard replication"
  else
    let sourceNodeId := sourcePlacementList.headD 0
    let shardSplitPointsList := isolateTenantSplitPoints shardMinValue shardMaxValue hashedValue
    let nodeIdsForPlacementList := [sourceNodeId, sourceNodeId]
    let nodeIdsForPlacementList :=
      if shardSplitPointsList.length > 1 then nodeIdsForPlacementList ++ [sourceNodeId]
      else nodeIdsForPlacementList
    .ok ⟨shardSplitPointsList, nodeIdsForPlacementList⟩

/-- One split point at a bound of the shard, two inside it. -/
theorem length_isolateTenantSplitPoints (shardMinValue shardMaxValue hashedValue : Int) :
    0 < (isolateTenantSplitPoints shardMinValue shardMaxValue hashedValue).length ∧
      (isolateTenantSplitPoints shardMinValue shardMaxValue hashedValue).length ≤ 2 := by
  unfold isolateTenantSplitPoints
  split_ifs <;> simp

/-- The request of a tenant isolation: its split points, and one node id more. -/
theorem isolateTenantToNewShard_eq_ok {tableName : String} {sourceShard : ShardInterval Int}
    {sourcePlacementList : List Nat} {hashedValue : Int} {request : SplitShardRequest}
    (h : isolateTenantToNewShard tableName sourceShard sourcePlacementList hashedValue =
      .ok request) :
    request.shardSplitPointsList = isolateTenantSplitPoints (sourceShard.minValue.getD 0)
        (sourceShard.maxValue.getD 0) hashedValue ∧
      request.nodeIdsForPlacementList.length = request.shardSplitPointsList.length + 1 := by
  have hlength := length_isolateTenantSplitPoints (sourceShard.minValue.getD 0)
    (sourceShard.maxValue.getD 0) hashedValue
  unfold isolateTenantToNewShard at h
  dsimp only at h
  split_ifs at h with hequal hreplicated hsplit <;> cases h
  · refine ⟨rfl, ?_⟩
    simp only [List.length_append, List.length_cons, List.length_nil]
    omega
  · refine ⟨rfl, ?_⟩
    simp only [List.length_cons, List.length_nil]
    omega

variable {lo hi h : Int}

/-- The split points around a hash value of `[lo, hi]` pass the split point checks and
leave `[h, h]` as a child. The three cases are the branches of the source. -/
theorem isolateTenantSplitPoints_spec (hlt : lo < hi) (hlow : lo ≤ h) (hhigh : h ≤ hi) :
    (∀ p ∈ isolateTenantSplitPoints lo hi h, lo ≤ p ∧ p < hi) ∧
      (isolateTenantSplitPoints lo hi h).Pairwise (· < ·) ∧
      (isolateTenantSplitPoints lo hi h).length + 1 ≤ maxShardCount ∧
      (h, h) ∈ splitChildRanges hi lo (isolateTenantSplitPoints lo hi h) := by
  unfold isolateTenantSplitPoints
  split_ifs with hmin hmax
  · -- the value is the shard's min value: the first child is `[h, h]`
    subst hmin
    simp [splitChildRanges, maxShardCount, hlt]
  · -- the value is the shard's max value: the last child is `[h, h]`
    subst hmax
    refine ⟨?_, by simp, by simp [maxShardCount], ?_⟩
    · simp only [List.mem_singleton, forall_eq]
      omega
    · simp [splitChildRanges]
  · -- the value is inside: the middle child is `[h, h]`
    refine ⟨?_, ?_, by simp [maxShardCount], ?_⟩
    · simp only [List.mem_cons, List.not_mem_nil, or_false, forall_eq_or_imp, forall_eq]
      omega
    · simp
    · simp [splitChildRanges]

/-- The split a tenant isolation asks for passes every check on its split points and
node ids, so it is accepted exactly when the table itself can be split; and it cuts the
shard into a tiling in which `[h, h]` is exactly one child. -/
theorem isolateTenantToNewShard_isolates {tableName : String}
    {sourceShard : ShardInterval Int} {sourcePlacementList : List Nat}
    {request : SplitShardRequest}
    (hmin : sourceShard.minValue = some lo) (hmax : sourceShard.maxValue = some hi)
    (hlo : InInt32 lo) (hhi : InInt32 hi) (hlt : lo < hi) (hlow : lo ≤ h) (hhigh : h ≤ hi)
    (hrequest : isolateTenantToNewShard tableName sourceShard sourcePlacementList h =
      .ok request)
    (table : SplitTable) (childShardId : Nat → Nat) :
    (errorIfCannotSplitShardExtended .isolateTenantToNewShard table sourceShard
        request.shardSplitPointsList request.nodeIdsForPlacementList = .ok () ↔
      table.isHashDistributed = true ∧ table.relationReplicationFactor ≤ 1) ∧
      request.nodeIdsForPlacementList.length = request.shardSplitPointsList.length + 1 ∧
      (createSplitIntervalsForShard sourceShard request.shardSplitPointsList
          childShardId).map ShardInterval.bounds =
        (splitChildRanges hi lo request.shardSplitPointsList).map some ∧
      Tiles lo hi (splitChildRanges hi lo request.shardSplitPointsList) ∧
      ((createSplitIntervalsForShard sourceShard request.shardSplitPointsList
          childShardId).map ShardInterval.bounds).count (some (h, h)) = 1 := by
  obtain ⟨hpoints, hnodes⟩ := isolateTenantToNewShard_eq_ok hrequest
  rw [hmin, hmax, Option.getD_some, Option.getD_some] at hpoints
  obtain ⟨hbounds, hsorted, hcount, hmem⟩ := isolateTenantSplitPoints_spec hlt hlow hhigh
  rw [← hpoints] at hbounds hsorted hcount hmem
  obtain ⟨hchildren, htiles⟩ := createSplitIntervalsForShard_eq_splitChildRanges hmin hmax
    hlo hhi hlt.le hbounds hsorted childShardId
  have haccepted := @errorIfCannotSplitShardExtended_eq_ok .isolateTenantToNewShard table
    sourceShard lo hi (by decide) hmin hmax
    request.shardSplitPointsList request.nodeIdsForPlacementList
  refine ⟨?_, hnodes, hchildren, htiles, ?_⟩
  · rw [haccepted]
    constructor
    · rintro ⟨hhash, hfactor, -⟩
      exact ⟨hhash, hfactor⟩
    · rintro ⟨hhash, hfactor⟩
      exact ⟨hhash, hfactor, hnodes, hcount, hlt.ne, hbounds, hsorted⟩
  · -- the children are distinct ranges, one of which is `[h, h]`
    rw [hchildren, List.count_map_of_injective _ _ (Option.some_injective _)]
    exact List.count_eq_one_of_mem (Tiles.nodup htiles) hmem

theorem isolateTenantToNewShard_isolates_inside :
    isolateTenantToNewShard "orders" ⟨7, some 0, some 100⟩ [4] 42 =
        .ok ⟨[41, 42], [4, 4, 4]⟩ ∧
      ((errorIfCannotSplitShardExtended .isolateTenantToNewShard ⟨true, 1⟩ ⟨7, some 0, some 100⟩
          [41, 42] [4, 4, 4] = .ok () ↔ true = true ∧ 1 ≤ 1) ∧
        [4, 4, 4].length = [41, 42].length + 1 ∧
        (createSplitIntervalsForShard ⟨7, some 0, some 100⟩ [41, 42] id).map
            ShardInterval.bounds = (splitChildRanges 100 0 [41, 42]).map some ∧
        Tiles 0 100 (splitChildRanges 100 0 [41, 42]) ∧
        ((createSplitIntervalsForShard ⟨7, some 0, some 100⟩ [41, 42] id).map
            ShardInterval.bounds).count (some (42, 42)) = 1) :=
  ⟨rfl, @isolateTenantToNewShard_isolates 0 100 42 "orders" ⟨7, some 0, some 100⟩ [4]
    ⟨[41, 42], [4, 4, 4]⟩ rfl rfl (by decide) (by decide) (by decide) (by decide)
    (by decide) rfl ⟨true, 1⟩ id⟩

end Isolation

end Citus.Operations
