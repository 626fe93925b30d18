import Citus.Lib.MachineInt
import Mathlib

/-!
# Shard intervals and the cached shard array

A distributed table's shards each own an interval of values: of the partition
column for range and append tables, of the column's hash for hash tables
(`metadata_cache.c`, `shardinterval_utils.c`). A bound may be missing; such
intervals sort last. The metadata cache keeps the intervals sorted by
`CompareShardIntervals` and derives three flags from the sorted array.

## Implementation notes

Two comparators are involved in the source: the partition column's btree
comparator and the shard interval type's. For range and append tables both are
the column type's; for hash tables the interval type is `int4`. The model keeps
the column type `β` and the interval type `α` apart, each with its own linear
order, and records in the cache entry how a column value becomes an interval
value (`datumValue`, the unchanged `Datum`) and how an interval value is read as
an `int32` (`datumGetInt32`). The cache entry carries the facts the cache
builder guarantees, so that no entry violating them can be built.
-/

namespace Citus.Shard

open MachineInt

/-- `pg_dist_partition.partmethod`. -/
inductive PartitionMethod
  | hash
  | range
  | append
  | none
  deriving DecidableEq, Repr

/-- A shard interval: the shard's id and its bounds, each of which may be absent. -/
structure ShardInterval (α : Type) where
  shardId : Nat
  minValue : Option α
  maxValue : Option α
  deriving DecidableEq, Repr

namespace ShardInterval

variable {α : Type}

/-- `!minValueExists || !maxValueExists`. -/
def hasNull (s : ShardInterval α) : Bool :=
  s.minValue.isNone || s.maxValue.isNone

/-- The interval has both bounds and `v` lies between them. -/
def Contains [LinearOrder α] (s : ShardInterval α) (v : α) : Prop :=
  ∃ lo hi, s.minValue = some lo ∧ s.maxValue = some hi ∧ lo ≤ v ∧ v ≤ hi

instance [LinearOrder α] (s : ShardInterval α) (v : α) : Decidable (s.Contains v) :=
  match hmin : s.minValue, hmax : s.maxValue with
  | some lo, some hi =>
      decidable_of_iff (lo ≤ v ∧ v ≤ hi) (by simp [Contains, hmin, hmax])
  | none, _ => isFalse (by simp [Contains, hmin])
  | some _, none => isFalse (by simp [Contains, hmax])

/-- The interval's `(min, max)` when it has both bounds. -/
def bounds (s : ShardInterval α) : Option (α × α) :=
  match s.minValue, s.maxValue with
  | some lo, some hi => some (lo, hi)
  | _, _ => none

theorem bounds_eq_some_iff {s : ShardInterval α} {lo hi : α} :
    s.bounds = some (lo, hi) ↔ s.minValue = some lo ∧ s.maxValue = some hi := by
  cases hmin : s.minValue <;> cases hmax : s.maxValue <;> simp [bounds, hmin, hmax]

theorem hasNull_eq_false_iff {s : ShardInterval α} :
    s.hasNull = false ↔ ∃ lo hi, s.minValue = some lo ∧ s.maxValue = some hi := by
  cases hmin : s.minValue <;> cases hmax : s.maxValue <;> simp [hasNull, hmin, hmax]

end ShardInterval

section Compare

variable {α : Type} [LinearOrder α]

/-- `CompareShardIntervals`: intervals with a missing bound sort after the
others; two complete intervals compare by their min values; ties are broken by
shard id. -/
def compareShardIntervals (l r : ShardInterval α) : Ordering :=
  let comparisonResult : Ordering :=
    match l.hasNull, r.hasNull, l.minValue, r.minValue with
    | true, true, _, _ => .eq
    | true, false, _, _ => .gt
    | false, true, _, _ => .lt
    | false, false, some lmin, some rmin => compare lmin rmin
    -- a complete interval has a min value
    | false, false, _, _ => .eq
  if comparisonResult = .eq then compare l.shardId r.shardId else comparisonResult

/-- The order `SortShardIntervalArray` leaves the array in. -/
def SortedShardIntervals (arr : List (ShardInterval α)) : Prop :=
  arr.Pairwise fun a b => compareShardIntervals a b ≠ .gt

/-- Two complete intervals in sorted order have ordered min values. -/
theorem minValue_le_of_sorted_le {a b : ShardInterval α} {amin bmin : α}
    (hab : compareShardIntervals a b ≠ .gt) (ha : a.hasNull = false) (hb : b.hasNull = false)
    (hamin : a.minValue = some amin) (hbmin : b.minValue = some bmin) : amin ≤ bmin := by
  by_contra hlt
  have hgt : compare amin bmin = .gt := compare_gt_iff_gt.mpr (lt_of_not_ge hlt)
  simp [compareShardIntervals, ha, hb, hamin, hbmin, hgt] at hab

/-- Complete intervals with increasing min values compare as `lt`. -/
theorem compareShardIntervals_of_lt {a b : ShardInterval α} {amin bmin : α}
    (ha : a.hasNull = false) (hb : b.hasNull = false)
    (hamin : a.minValue = some amin) (hbmin : b.minValue = some bmin) (h : amin < bmin) :
    compareShardIntervals a b = .lt := by
  simp [compareShardIntervals, ha, hb, hamin, hbmin, compare_lt_iff_lt.mpr h]

end Compare

section Flags

variable {α : Type} [LinearOrder α]

/-- `HasUninitializedShardInterval`: on a sorted array only the last interval
needs to be checked. -/
def hasUninitializedShardInterval (arr : List (ShardInterval α)) : Bool :=
  match arr.getLast? with
  | none => false
  | some last => last.hasNull

/-- `HasOverlappingShardInterval`: some interval's max is not below the next
interval's min. The source only calls it on arrays without missing bounds; a
missing bound counts as an overlap here. -/
def hasOverlappingShardInterval : List (ShardInterval α) → Bool
  | a :: b :: rest =>
      (match a.maxValue, b.minValue with
        | some lastMax, some curMin => compare lastMax curMin != .lt
        | _, _ => true) ||
      hasOverlappingShardInterval (b :: rest)
  | _ => false

/-- `a` lies entirely before `b`: both are complete, `a`'s min is at most `b`'s
and `a`'s max is below `b`'s min. -/
def Before (a b : ShardInterval α) : Prop :=
  ∃ amin amax bmin bmax, a.minValue = some amin ∧ a.maxValue = some amax ∧
    b.minValue = some bmin ∧ b.maxValue = some bmax ∧ amin ≤ bmin ∧ amax < bmin

theorem Before.trans {a b c : ShardInterval α} (hab : Before a b) (hbc : Before b c) :
    Before a c := by
  obtain ⟨amin, amax, bmin, bmax, ha₁, ha₂, hb₁, hb₂, hmin, hmax⟩ := hab
  obtain ⟨bmin', bmax', cmin, cmax, hb₁', hb₂', hc₁, hc₂, hmin', hmax'⟩ := hbc
  obtain rfl : bmin = bmin' := Option.some.inj (hb₁.symm.trans hb₁')
  exact ⟨amin, amax, cmin, cmax, ha₁, ha₂, hc₁, hc₂, hmin.trans hmin',
    lt_of_lt_of_le hmax hmin'⟩

/-- Complete, sorted intervals without overlaps: every interval lies before
every later one. -/
def Separated (arr : List (ShardInterval α)) : Prop :=
  (∀ s ∈ arr, s.hasNull = false) ∧ arr.Pairwise Before

/-- A sorted array whose last interval is complete has no incomplete interval. -/
theorem forall_hasNull_eq_false {arr : List (ShardInterval α)}
    (hsorted : SortedShardIntervals arr) (h : hasUninitializedShardInterval arr = false) :
    ∀ s ∈ arr, s.hasNull = false := by
  induction arr with
  | nil => simp
  | cons a rest ih =>
      rw [SortedShardIntervals, List.pairwise_cons] at hsorted
      cases rest with
      | nil => simpa [hasUninitializedShardInterval] using h
      | cons b rest' =>
          have htail : hasUninitializedShardInterval (b :: rest') = false := by
            simpa [hasUninitializedShardInterval] using h
          have hall := ih hsorted.2 htail
          intro s hs
          rcases List.mem_cons.mp hs with rfl | hs
          · -- `s` sorts before `b`, which is complete
            cases hnull : s.hasNull
            · rfl
            · have hb := hall b List.mem_cons_self
              have hsb := hsorted.1 b List.mem_cons_self
              simp [compareShardIntervals, hnull, hb] at hsb
          · exact hall s hs

/-- Sorted complete intervals without a consecutive overlap are separated. -/
theorem separated_of_not_overlapping {arr : List (ShardInterval α)}
    (hsorted : SortedShardIntervals arr) (hnull : ∀ s ∈ arr, s.hasNull = false)
    (h : hasOverlappingShardInterval arr = false) : Separated arr := by
  refine ⟨hnull, ?_⟩
  induction arr with
  | nil => exact List.Pairwise.nil
  | cons a rest ih =>
      rw [SortedShardIntervals, List.pairwise_cons] at hsorted
      cases rest with
      | nil => exact List.pairwise_singleton _ _
      | cons b rest' =>
          simp only [hasOverlappingShardInterval, Bool.or_eq_false_iff] at h
          have htail := ih hsorted.2 (fun s hs => hnull s (List.mem_cons_of_mem a hs)) h.2
          obtain ⟨amin, amax, hamin, hamax⟩ :=
            ShardInterval.hasNull_eq_false_iff.mp (hnull a List.mem_cons_self)
          obtain ⟨bmin, bmax, hbmin, hbmax⟩ := ShardInterval.hasNull_eq_false_iff.mp
            (hnull b (List.mem_cons_of_mem a List.mem_cons_self))
          -- the overlap test gives `amax < bmin`, sortedness gives `amin ≤ bmin`
          have hab : Before a b := by
            refine ⟨amin, amax, bmin, bmax, hamin, hamax, hbmin, hbmax, ?_, ?_⟩
            · exact minValue_le_of_sorted_le (hsorted.1 b List.mem_cons_self)
                (hnull a List.mem_cons_self)
                (hnull b (List.mem_cons_of_mem a List.mem_cons_self)) hamin hbmin
            · have hcmp := h.1
              simp only [hamax, hbmin, bne_eq_false_iff_eq] at hcmp
              exact compare_lt_iff_lt.mp hcmp
          refine List.Pairwise.cons (fun c hc => ?_) htail
          rcases List.mem_cons.mp hc with rfl | hc
          · exact hab
          · exact hab.trans (List.rel_of_pairwise_cons htail hc)

/-- No value lies in two intervals one of which lies before the other. -/
theorem Before.not_contains_both {a b : ShardInterval α} {v : α} (hab : Before a b)
    (ha : a.Contains v) (hb : b.Contains v) : False := by
  obtain ⟨amin, amax, bmin, bmax, -, ha₂, hb₁, -, -, hlt⟩ := hab
  obtain ⟨_, amax', -, ha₂', -, hva⟩ := ha
  obtain ⟨bmin', _, hb₁', -, hvb, -⟩ := hb
  obtain rfl : amax = amax' := Option.some.inj (ha₂.symm.trans ha₂')
  obtain rfl : bmin = bmin' := Option.some.inj (hb₁.symm.trans hb₁')
  exact absurd (lt_of_lt_of_le hlt hvb) (not_lt_of_ge hva)

omit [LinearOrder α] in
/-- The converse of `forall_hasNull_eq_false`: an array of complete intervals
has no uninitialized one. -/
theorem hasUninitializedShardInterval_eq_false {arr : List (ShardInterval α)}
    (h : ∀ s ∈ arr, s.hasNull = false) : hasUninitializedShardInterval arr = false := by
  unfold hasUninitializedShardInterval
  cases hlast : arr.getLast? with
  | none => rfl
  | some last => exact h last (List.mem_of_getLast? hlast)

/-- The converse of `separated_of_not_overlapping`. -/
theorem hasOverlappingShardInterval_eq_false {arr : List (ShardInterval α)}
    (h : arr.Pairwise Before) : hasOverlappingShardInterval arr = false := by
  induction arr with
  | nil => rfl
  | cons a rest ih =>
      cases rest with
      | nil => rfl
      | cons b rest' =>
          rw [List.pairwise_cons] at h
          obtain ⟨amin, amax, bmin, bmax, -, hamax, hbmin, -, -, hlt⟩ :=
            h.1 b List.mem_cons_self
          simp only [hasOverlappingShardInterval, hamax, hbmin, compare_lt_iff_lt.mpr hlt,
            bne_self_eq_false, Bool.false_or]
          exact ih h.2

namespace Separated

variable {arr : List (ShardInterval α)}

/-- An interval of a separated array lies before every later one. -/
theorem before (h : Separated arr) {i j : Nat} {a b : ShardInterval α}
    (ha : arr[i]? = some a) (hb : arr[j]? = some b) (hij : i < j) : Before a b := by
  obtain ⟨hi, rfl⟩ := List.getElem?_eq_some_iff.mp ha
  obtain ⟨hj, rfl⟩ := List.getElem?_eq_some_iff.mp hb
  exact List.pairwise_iff_getElem.mp h.2 i j hi hj hij

/-- Every interval of a separated array has both bounds. -/
theorem bounds_of_getElem? (h : Separated arr) {i : Nat} {a : ShardInterval α}
    (ha : arr[i]? = some a) : ∃ lo hi, a.minValue = some lo ∧ a.maxValue = some hi :=
  ShardInterval.hasNull_eq_false_iff.mp (h.1 a (List.mem_iff_getElem?.mpr ⟨i, ha⟩))

/-- At most one interval of a separated array contains a value. -/
theorem index_unique (h : Separated arr) {i j : Nat} {a b : ShardInterval α} {v : α}
    (ha : arr[i]? = some a) (hb : arr[j]? = some b) (hav : a.Contains v)
    (hbv : b.Contains v) : i = j := by
  rcases Nat.lt_trichotomy i j with hij | hij | hij
  · exact (Before.not_contains_both (h.before ha hb hij) hav hbv).elim
  · exact hij
  · exact (Before.not_contains_both (h.before hb ha hij) hbv hav).elim

end Separated

end Flags

section HashTokens

/-- `HASH_TOKEN_COUNT`: the number of `int32` hash values. -/
def hashTokenCount : Nat := 2 ^ 32

/-- `PG_INT32_MIN + (shardIndex * hashTokenIncrement)`, computed in `uint64` and
stored into an `int32`. -/
def shardMinHashToken (hashTokenIncrement shardIndex : Nat) : Int :=
  toInt32 (toUInt64 (int32Min + shardIndex * hashTokenIncrement))

/-- `shardMinHashToken + (hashTokenIncrement - 1)`, computed in `uint64` and
stored into an `int32`. -/
def shardMaxHashToken (hashTokenIncrement shardIndex : Nat) : Int :=
  toInt32 (toUInt64 (shardMinHashToken hashTokenIncrement shardIndex +
    toUInt64 ((hashTokenIncrement : Int) - 1)))

/-- The `(min, max)` hash tokens of range `shardIndex` among `shardCount` equal
ranges, computed as every place in the source computes them: the last range is
extended to `PG_INT32_MAX`. -/
def uniformHashRange (shardCount shardIndex : Nat) : Int × Int :=
  let hashTokenIncrement := hashTokenCount / shardCount
  (shardMinHashToken hashTokenIncrement shardIndex,
    if shardIndex = shardCount - 1 then int32Max
    else shardMaxHashToken hashTokenIncrement shardIndex)

variable {α : Type}

/-- `HasUniformHashDistribution`: the `n` intervals are exactly the `n` equal
ranges of the hash space. A missing bound is read as the zero `Datum`. -/
def hasUniformHashDistribution (datumGetInt32 : α → Int)
    (arr : List (ShardInterval α)) : Bool :=
  if arr.length = 0 then false
  else
    arr.zipIdx.all fun p =>
      (p.1.minValue.map datumGetInt32).getD 0 == (uniformHashRange arr.length p.2).1 &&
        (p.1.maxValue.map datumGetInt32).getD 0 == (uniformHashRange arr.length p.2).2

end HashTokens

/-- The parts of `CitusTableCacheEntry` that shard routing and pruning read.

`hashFunction` is the column's hash support function; `datumValue` passes a
column value on as an interval value (range and append tables share the type);
`datumGetInt32` reads an interval value as an `int32`. The proof fields hold by
construction of the cache: the array was sorted by `CompareShardIntervals`,
`ErrorIfInconsistentShardIntervals` rejected hash tables with incomplete or
overlapping intervals, a table without distribution key has at most one shard,
the comparators agree with the conversions, a hash support function returns an
`int4`, and the shard count is an `int`. -/
structure CitusTableCacheEntry (β α : Type) [LinearOrder β] [LinearOrder α] where
  partitionMethod : PartitionMethod
  hashFunction : β → α
  datumValue : β → α
  datumGetInt32 : α → Int
  sortedShardIntervalArray : List (ShardInterval α)
  sorted : SortedShardIntervals sortedShardIntervalArray
  hash_consistent : partitionMethod = .hash →
    hasUninitializedShardInterval sortedShardIntervalArray = false ∧
      hasOverlappingShardInterval sortedShardIntervalArray = false
  none_single : partitionMethod = .none → sortedShardIntervalArray.length ≤ 1
  datumValue_compare : partitionMethod ≠ .hash →
    ∀ x y, compare (datumValue x) (datumValue y) = compare x y
  datumGetInt32_compare : partitionMethod = .hash →
    ∀ x y, compare (datumGetInt32 x) (datumGetInt32 y) = compare x y
  hashFunction_inInt32 : partitionMethod = .hash → ∀ v, InInt32 (datumGetInt32 (hashFunction v))
  shardCount_le : (sortedShardIntervalArray.length : Int) ≤ int32Max

namespace CitusTableCacheEntry

variable {β α : Type} [LinearOrder β] [LinearOrder α] (e : CitusTableCacheEntry β α)

/-- `HasDistributionKeyCacheEntry`. -/
def hasDistributionKey : Bool := e.partitionMethod != .none

/-- `cacheEntry->hasUninitializedShardInterval` as `BuildCachedShardList` sets it. -/
def hasUninitializedShardIntervalFlag : Bool :=
  if e.partitionMethod = .none then true
  else hasUninitializedShardInterval e.sortedShardIntervalArray

/-- `cacheEntry->hasOverlappingShardInterval` as `BuildCachedShardList` sets it. -/
def hasOverlappingShardIntervalFlag : Bool :=
  if e.partitionMethod = .none then true
  else if hasUninitializedShardInterval e.sortedShardIntervalArray then true
  else hasOverlappingShardInterval e.sortedShardIntervalArray

/-- `cacheEntry->hasUniformHashDistribution`: computed for hash tables only. -/
def hasUniformHashDistributionFlag : Bool :=
  if e.partitionMethod = .hash then
    hasUniformHashDistribution e.datumGetInt32 e.sortedShardIntervalArray
  else false

/-- Without the overlap flag the cached array is separated. -/
theorem separated_of_flag (h : e.hasOverlappingShardIntervalFlag = false) :
    Separated e.sortedShardIntervalArray := by
  unfold hasOverlappingShardIntervalFlag at h
  split_ifs at h with hnone huninit
  have hnull := forall_hasNull_eq_false e.sorted (by simpa using huninit)
  exact separated_of_not_overlapping e.sorted hnull h

/-- A hash table's cached array never has the overlap flag. -/
theorem hasOverlappingShardIntervalFlag_of_hash (h : e.partitionMethod = .hash) :
    e.hasOverlappingShardIntervalFlag = false := by
  obtain ⟨huninit, hover⟩ := e.hash_consistent h
  simp [hasOverlappingShardIntervalFlag, h, huninit, hover]

end CitusTableCacheEntry

end Citus.Shard
