import Citus.Lib.Bisection
import Citus.Shard.HashRange

/-!
# Routing a value to its shard

`FindShardInterval` maps a partition column value to the cached shard interval
that holds it (`shardinterval_utils.c`). Range and append tables, and hash tables
whose ranges are not the `n` equal ones, bisect the sorted array
(`SearchCachedShardInterval`). Hash tables with the `n` equal ranges divide the
normalized hash by the range length instead (`CalculateUniformHashRangeIndex`).

On a separated array the bisection finds the interval that contains the value
and reports `INVALID_SHARD_INDEX` only when there is none. The division agrees
with it as long as the remainder `2 ^ 32 % n` is at most the range length
`2 ^ 32 / n`, which holds for every `n ≤ 2 ^ 16` and so for every table of at most
`MAX_SHARD_COUNT` shards. Beyond that the last range can be more than twice as long
as the others; a hash in its tail then divides to `n + 1` or more, which the source
reports as a bug.

## Implementation notes

A missing bound is read by the source as the zero `Datum`; the model compares it
as `default`. Routing lemmas assume separated arrays, where no bound is missing.
-/

namespace Citus.Shard

open MachineInt Bisection

section Search

variable {α : Type} [LinearOrder α] [Inhabited α]

/-- One probe of `SearchCachedShardInterval` at `middleIndex`: left of the min
value, inside the interval, or right of the max value. -/
def searchCachedShardIntervalProbe (partitionColumnValue : α)
    (shardIntervalCache : List (ShardInterval α)) (middleIndex : Nat) : Probe :=
  match shardIntervalCache[middleIndex]? with
  | none => .left
  | some shardInterval =>
      if compare partitionColumnValue (shardInterval.minValue.getD default) = .lt then .left
      else if compare partitionColumnValue (shardInterval.maxValue.getD default) ≠ .gt then
        .found
      else .right

/-- `SearchCachedShardInterval`: bisection of `[0, shardCount)`; `none` is
`INVALID_SHARD_INDEX`. The source's midpoint `(lowerBoundIndex + upperBoundIndex) / 2`
is `Bisection.midpoint` on every window (`Bisection.midpoint_eq_add_div`). -/
def searchCachedShardInterval (partitionColumnValue : α)
    (shardIntervalCache : List (ShardInterval α)) (shardCount : Nat) : Option Nat :=
  match search (searchCachedShardIntervalProbe partitionColumnValue shardIntervalCache) 0
      shardCount with
  | .found middleIndex => some middleIndex
  | .exhausted _ => none

variable {arr : List (ShardInterval α)} {v : α}

/-- The probe at a complete interval compares the value with its bounds. -/
theorem searchCachedShardIntervalProbe_of_bounds {i : Nat} {s : ShardInterval α} {lo hi : α}
    (hs : arr[i]? = some s) (hlo : s.minValue = some lo) (hhi : s.maxValue = some hi) :
    searchCachedShardIntervalProbe v arr i =
      if v < lo then .left else if v ≤ hi then .found else .right := by
  simp [searchCachedShardIntervalProbe, hs, hlo, hhi, compare_lt_iff_lt, compare_gt_iff_gt]

/-- On a separated array the probe at every index is at a complete interval. -/
theorem Separated.probe_eq (h : Separated arr) {i : Nat} (hi : i < arr.length) :
    ∃ s lo hi', arr[i]? = some s ∧ s.minValue = some lo ∧ s.maxValue = some hi' ∧
      searchCachedShardIntervalProbe v arr i =
        if v < lo then .left else if v ≤ hi' then .found else .right := by
  have hs : arr[i]? = some arr[i] := List.getElem?_eq_getElem hi
  obtain ⟨lo, hi', hlo, hhi⟩ := h.bounds_of_getElem? hs
  exact ⟨arr[i], lo, hi', hs, hlo, hhi, searchCachedShardIntervalProbe_of_bounds hs hlo hhi⟩

/-- The probe at an index answers `found` exactly when the interval there holds
the value. -/
theorem Separated.probe_eq_found_iff (h : Separated arr) {i : Nat} (hi : i < arr.length) :
    searchCachedShardIntervalProbe v arr i = .found ↔ arr[i].Contains v := by
  obtain ⟨s, lo, hi', hs, hlo, hhi, hprobe⟩ := h.probe_eq (v := v) hi
  obtain rfl : arr[i] = s := Option.some.inj ((List.getElem?_eq_getElem hi).symm.trans hs)
  rw [hprobe]
  constructor
  · intro hfound
    split_ifs at hfound with hlt hle
    exact ⟨lo, hi', hlo, hhi, le_of_not_gt hlt, hle⟩
  · rintro ⟨lo', hi'', hlo', hhi', hlov, hvhi⟩
    obtain rfl : lo = lo' := Option.some.inj (hlo.symm.trans hlo')
    obtain rfl : hi' = hi'' := Option.some.inj (hhi.symm.trans hhi')
    rw [if_neg (not_lt_of_ge hlov), if_pos hvhi]

/-- The probe is monotone on a separated array: min values increase, and every
max value lies below the next min value. -/
theorem Separated.probe_monotone (h : Separated arr) (v : α) :
    Monotone (searchCachedShardIntervalProbe v arr) arr.length where
  left_up := by
    intro i j hij hj hleft
    obtain ⟨a, alo, ahi, ha, halo, -, hpa⟩ := h.probe_eq (v := v) (Nat.lt_of_le_of_lt hij hj)
    obtain ⟨b, blo, bhi, hb, hblo, -, hpb⟩ := h.probe_eq (v := v) hj
    rcases Nat.eq_or_lt_of_le hij with rfl | hlt
    · exact hleft
    · obtain ⟨amin, -, bmin, -, hamin, -, hbmin, -, hle, -⟩ := h.before ha hb hlt
      obtain rfl : alo = amin := Option.some.inj (halo.symm.trans hamin)
      obtain rfl : blo = bmin := Option.some.inj (hblo.symm.trans hbmin)
      -- `v` lies left of the earlier min, hence left of the later one
      have hva : v < alo := by
        rw [hpa] at hleft
        split_ifs at hleft with hva
        exact hva
      rw [hpb, if_pos (lt_of_lt_of_le hva hle)]
  right_down := by
    intro i j hij hj hright
    obtain ⟨a, alo, ahi, ha, halo, hahi, hpa⟩ := h.probe_eq (v := v) (Nat.lt_of_le_of_lt hij hj)
    obtain ⟨b, blo, bhi, hb, hblo, -, hpb⟩ := h.probe_eq (v := v) hj
    rcases Nat.eq_or_lt_of_le hij with rfl | hlt
    · exact hright
    · obtain ⟨amin, amax, bmin, -, hamin, hamax, hbmin, -, hle, hlt'⟩ := h.before ha hb hlt
      obtain rfl : alo = amin := Option.some.inj (halo.symm.trans hamin)
      obtain rfl : ahi = amax := Option.some.inj (hahi.symm.trans hamax)
      obtain rfl : blo = bmin := Option.some.inj (hblo.symm.trans hbmin)
      -- `v` is not left of the later min, which lies after the earlier interval
      have hvb : blo ≤ v := by
        rw [hpb] at hright
        split_ifs at hright with hvb
        exact le_of_not_gt hvb
      rw [hpa, if_neg (not_lt_of_ge (le_trans hle hvb)),
        if_neg (not_le_of_gt (lt_of_lt_of_le hlt' hvb))]

/-- A bisection result names an interval that holds the value. -/
theorem searchCachedShardInterval_eq_some (h : Separated arr) {i : Nat}
    (hsearch : searchCachedShardInterval v arr arr.length = some i) :
    ∃ s, arr[i]? = some s ∧ s.Contains v := by
  unfold searchCachedShardInterval at hsearch
  split at hsearch
  · next m hm =>
      obtain rfl : m = i := Option.some.inj hsearch
      obtain ⟨-, hlt, hfound⟩ := search_found hm
      exact ⟨arr[m], List.getElem?_eq_getElem hlt, (h.probe_eq_found_iff hlt).mp hfound⟩
  · cases hsearch

/-- The bisection reports `INVALID_SHARD_INDEX` only when no interval holds the
value. -/
theorem searchCachedShardInterval_eq_none (h : Separated arr)
    (hsearch : searchCachedShardInterval v arr arr.length = none) :
    ∀ s ∈ arr, ¬ s.Contains v := by
  intro s hs hcont
  obtain ⟨i, hi, rfl⟩ := List.getElem_of_mem hs
  obtain ⟨m, hm⟩ := search_isFound_of_found (h.probe_monotone v) hi
    ((h.probe_eq_found_iff hi).mpr hcont)
  simp [searchCachedShardInterval, hm] at hsearch

/-- The bisection finds the interval that holds the value. -/
theorem searchCachedShardInterval_of_contains (h : Separated arr) {i : Nat} {s : ShardInterval α}
    (hs : arr[i]? = some s) (hcont : s.Contains v) :
    searchCachedShardInterval v arr arr.length = some i := by
  cases hsearch : searchCachedShardInterval v arr arr.length with
  | none =>
      exact absurd hcont
        (searchCachedShardInterval_eq_none h hsearch s (List.mem_iff_getElem?.mpr ⟨i, hs⟩))
  | some m =>
      obtain ⟨t, ht, htcont⟩ := searchCachedShardInterval_eq_some h hsearch
      rw [h.index_unique ht hs htcont hcont]

end Search

section Uniform

/-- `CalculateUniformHashRangeIndex`, in `int64` arithmetic; the quotient is stored
into an `int`. -/
def calculateUniformHashRangeIndex (hashedValue : Int) (shardCount : Nat) : Except String Nat :=
  let normalizedHashValue := hashedValue - int32Min
  let hashRangeSize : Int := (hashTokenCount / shardCount : Nat)
  let shardIndex := toInt32 (normalizedHashValue.tdiv hashRangeSize)
  if shardIndex < 0 ∨ shardIndex > shardCount then
    .error ("bug: shard index " ++ toString shardIndex ++ " out of bounds")
  else if shardIndex = shardCount then .ok (shardCount - 1)
  else .ok shardIndex.toNat

variable {n : Nat}

/-- The remainder of the hash space is at most one range long for every
`n ≤ 2 ^ 16`, since then a range has at least `2 ^ 16` tokens. -/
theorem hashTokenCount_mod_le_div (hn : 0 < n) (h : n ≤ 2 ^ 16) :
    hashTokenCount % n ≤ hashTokenCount / n := by
  have hmod : hashTokenCount % n < n := Nat.mod_lt _ hn
  have hdiv : 2 ^ 16 ≤ hashTokenCount / n := by
    rw [Nat.le_div_iff_mul_le hn]
    calc 2 ^ 16 * n ≤ 2 ^ 16 * 2 ^ 16 := Nat.mul_le_mul_left _ h
      _ = hashTokenCount := rfl
  omega

/-- The quotient the source computes, for an `int32` hash: the normalized hash
divided by the range length, in natural numbers. -/
theorem tdiv_hashRangeSize {hashedValue : Int} (h : InInt32 hashedValue) :
    (hashedValue - int32Min).tdiv ((hashTokenCount / n : Nat) : Int) =
      (((hashedValue - int32Min).toNat / (hashTokenCount / n) : Nat) : Int) := by
  have hnonneg : 0 ≤ hashedValue - int32Min := by
    unfold InInt32 at h
    omega
  rw [Int.tdiv_eq_ediv_of_nonneg hnonneg, Int.natCast_ediv (hashedValue - int32Min).toNat,
    Int.toNat_of_nonneg hnonneg]

/-- Range `i` of `n` holds the hash `PG_INT32_MIN + N` when it starts at or before
`N` and, unless it is the last range, ends after it. -/
theorem mathHashRange_contains {i N : Nat} (hi : i < n)
    (hN : N < hashTokenCount) (hstart : i * (hashTokenCount / n) ≤ N)
    (hend : i = n - 1 ∨ N < i * (hashTokenCount / n) + hashTokenCount / n) :
    (mathHashRange n i).1 ≤ int32Min + N ∧ int32Min + N ≤ (mathHashRange n i).2 := by
  have hstart' : ((i * (hashTokenCount / n) : Nat) : Int) ≤ N := by exact_mod_cast hstart
  push_cast at hstart'
  have hN' : (N : Int) < 2 ^ 32 := by exact_mod_cast hN
  unfold mathHashRange
  refine ⟨by simpa using hstart', ?_⟩
  dsimp only
  split_ifs with hlast
  · unfold int32Max int32Min
    omega
  · have hend' : ((N : Nat) : Int) < ((i * (hashTokenCount / n) + hashTokenCount / n : Nat) : Int) := by
      exact_mod_cast hend.resolve_left hlast
    push_cast at hend'
    omega

/-- When the remainder is at most one range, the division lands in the range that
holds the hash: in range `N / q`, or in the last range for the tail past `n * q`. -/
theorem calculateUniformHashRangeIndex_of_mod_le (hn : 0 < n) (hn32 : (n : Int) ≤ int32Max)
    (hrem : hashTokenCount % n ≤ hashTokenCount / n) {hashedValue : Int}
    (h : InInt32 hashedValue) :
    ∃ i, calculateUniformHashRangeIndex hashedValue n = .ok i ∧ i < n ∧
      (mathHashRange n i).1 ≤ hashedValue ∧ hashedValue ≤ (mathHashRange n i).2 := by
  have hle : n ≤ hashTokenCount := by
    unfold int32Max at hn32
    unfold hashTokenCount
    omega
  obtain ⟨hq, -⟩ := hashTokenIncrement_bounds hn hle
  have hdecomp := Nat.div_add_mod hashTokenCount n
  -- the normalized hash as a natural number below `2 ^ 32`
  obtain ⟨N, hNdef, hN⟩ : ∃ N : Nat, (N : Int) = hashedValue - int32Min ∧ N < hashTokenCount := by
    unfold InInt32 at h
    unfold int32Min int32Max hashTokenCount at *
    exact ⟨(hashedValue + 2 ^ 31).toNat, by omega, by omega⟩
  have hquot : (hashedValue - int32Min).toNat = N := by omega
  have hval : hashedValue = int32Min + N := by omega
  -- the quotient `k` is at most `n`: the tail past `n * q` is shorter than one range
  obtain ⟨k, hkdef⟩ : ∃ k, N / (hashTokenCount / n) = k := ⟨_, rfl⟩
  have hlo : k * (hashTokenCount / n) ≤ N := hkdef ▸ Nat.div_mul_le_self N _
  have hhi : N < k * (hashTokenCount / n) + hashTokenCount / n :=
    hkdef ▸ Nat.lt_div_mul_add hq
  have hk : k ≤ n := by
    rw [← hkdef, ← Nat.lt_succ_iff, Nat.div_lt_iff_lt_mul hq, Nat.succ_mul]
    have : n * (hashTokenCount / n) = hashTokenCount / n * n := Nat.mul_comm _ _
    omega
  have hcalc : calculateUniformHashRangeIndex hashedValue n =
      if k = n then .ok (n - 1) else .ok k := by
    have hk32 : toInt32 (k : Int) = k := by
      apply toInt32_of_inInt32
      unfold InInt32 int32Min
      constructor <;> omega
    unfold calculateUniformHashRangeIndex
    simp only [tdiv_hashRangeSize h, hquot, hkdef, hk32]
    have hgood : ¬ ((k : Int) < 0 ∨ (k : Int) > n) :=
      not_or.mpr ⟨not_lt.mpr (Int.natCast_nonneg k), not_lt.mpr (by exact_mod_cast hk)⟩
    rw [if_neg hgood]
    by_cases hkn : k = n
    · have hkn' : (k : Int) = n := by rw [hkn]
      rw [if_pos hkn', if_pos hkn]
    · have hkn' : ¬ (k : Int) = n := by exact_mod_cast hkn
      rw [if_neg hkn', if_neg hkn, Int.toNat_natCast]
  rw [hcalc, hval]
  by_cases hkn : k = n
  · -- the quotient is `n`: the hash lies in the tail of the last range
    have hlast : n - 1 < n := Nat.sub_lt hn Nat.one_pos
    refine ⟨n - 1, by rw [if_pos hkn], hlast, ?_⟩
    refine mathHashRange_contains hlast hN ?_ (Or.inl rfl)
    calc (n - 1) * (hashTokenCount / n) ≤ k * (hashTokenCount / n) :=
          Nat.mul_le_mul_right _ (hkn ▸ Nat.sub_le n 1)
      _ ≤ N := hlo
  · -- the quotient names a range
    have hlt : k < n := Nat.lt_of_le_of_ne hk hkn
    refine ⟨k, by rw [if_neg hkn], hlt, ?_⟩
    exact mathHashRange_contains hlt hN hlo (Or.inr hhi)

/-- When the remainder is longer than one range, the largest hash divides to
`n + 1` or more and the source raises its out-of-bounds error. -/
theorem calculateUniformHashRangeIndex_int32Max_error (hn : 0 < n)
    (hn32 : (n : Int) ≤ int32Max) (hrem : hashTokenCount / n < hashTokenCount % n) :
    ∃ msg, calculateUniformHashRangeIndex int32Max n = .error msg := by
  have hle : 2 * n ≤ hashTokenCount := by
    have : (n : Int) ≤ 2 ^ 31 - 1 := hn32
    unfold hashTokenCount
    omega
  have hq : 2 ≤ hashTokenCount / n := (Nat.le_div_iff_mul_le hn).mpr hle
  have hq0 : 0 < hashTokenCount / n := Nat.lt_of_lt_of_le Nat.zero_lt_two hq
  have hdecomp := Nat.div_add_mod hashTokenCount n
  -- the quotient `k` of the largest normalized hash passes `n`
  obtain ⟨k, hkdef⟩ : ∃ k, (hashTokenCount - 1) / (hashTokenCount / n) = k := ⟨_, rfl⟩
  have hk : n + 1 ≤ k := by
    rw [← hkdef, Nat.le_div_iff_mul_le hq0, Nat.succ_mul]
    have hcomm : n * (hashTokenCount / n) = hashTokenCount / n * n := Nat.mul_comm _ _
    omega
  have hk' : k ≤ (hashTokenCount - 1) / 2 := hkdef ▸ Nat.div_le_div_left hq Nat.zero_lt_two
  have hk32 : toInt32 (k : Int) = k := by
    apply toInt32_of_inInt32
    have : k ≤ 2 ^ 31 - 1 := hk'
    unfold InInt32 int32Min int32Max
    constructor <;> omega
  have hnorm : (int32Max - int32Min).toNat = hashTokenCount - 1 := by
    unfold int32Max int32Min hashTokenCount
    omega
  unfold calculateUniformHashRangeIndex
  simp only [tdiv_hashRangeSize inInt32_int32Max, hnorm, hkdef, hk32]
  have hbad : (k : Int) < 0 ∨ (k : Int) > n := Or.inr (by exact_mod_cast hk)
  rw [if_pos hbad]
  exact ⟨_, rfl⟩

end Uniform

section Find

variable {β α : Type} [LinearOrder β] [LinearOrder α]

/-- `index` is where `value` belongs in `arr`: an interval there holds it, or,
for `none`, no interval holds it. -/
def RoutesTo (arr : List (ShardInterval α)) (value : α) : Option Nat → Prop
  | some i => ∃ s, arr[i]? = some s ∧ s.Contains value
  | none => ∀ s ∈ arr, ¬ s.Contains value

/-- The value `FindShardInterval` searches for: the hash of the partition column
value for a hash table, the value itself otherwise. -/
def CitusTableCacheEntry.searchedValue (cacheEntry : CitusTableCacheEntry β α)
    (partitionColumnValue : β) : α :=
  if cacheEntry.partitionMethod = .hash then cacheEntry.hashFunction partitionColumnValue
  else cacheEntry.datumValue partitionColumnValue

namespace CitusTableCacheEntry

variable (e : CitusTableCacheEntry β α)

/-- The `int32` reading of interval values reflects their order. -/
theorem le_of_datumGetInt32_le (h : e.partitionMethod = .hash) {x y : α}
    (hxy : e.datumGetInt32 x ≤ e.datumGetInt32 y) : x ≤ y := by
  rw [← compare_le_iff_le, ← e.datumGetInt32_compare h]
  exact compare_le_iff_le.mpr hxy

/-- With the uniform flag every interval's bounds read as the equal range of
its index. -/
theorem bounds_of_uniform (h : e.hasUniformHashDistributionFlag = true) {i : Nat}
    {s : ShardInterval α} (hs : e.sortedShardIntervalArray[i]? = some s) :
    (s.minValue.map e.datumGetInt32).getD 0 =
        (uniformHashRange e.sortedShardIntervalArray.length i).1 ∧
      (s.maxValue.map e.datumGetInt32).getD 0 =
        (uniformHashRange e.sortedShardIntervalArray.length i).2 := by
  unfold hasUniformHashDistributionFlag hasUniformHashDistribution at h
  split_ifs at h with hhash hlen
  rw [List.all_eq_true] at h
  simpa using h (s, i) (List.mk_mem_zipIdx_iff_getElem?.mpr hs)

end CitusTableCacheEntry

variable (e : CitusTableCacheEntry β α)

/-- The uniform path routes every `int32` hash correctly when the remainder of the
hash space is at most one range. -/
theorem routesTo_calculateUniformHashRangeIndex (hsep : Separated e.sortedShardIntervalArray)
    (hhash : e.partitionMethod = .hash) (hflag : e.hasUniformHashDistributionFlag = true)
    (hpos : 0 < e.sortedShardIntervalArray.length)
    (hrem : hashTokenCount % e.sortedShardIntervalArray.length ≤
      hashTokenCount / e.sortedShardIntervalArray.length)
    {x : α} (hx : InInt32 (e.datumGetInt32 x)) :
    ∃ i, calculateUniformHashRangeIndex (e.datumGetInt32 x) e.sortedShardIntervalArray.length =
      .ok i ∧ RoutesTo e.sortedShardIntervalArray x (some i) := by
  have hle : e.sortedShardIntervalArray.length ≤ hashTokenCount := by
    have := e.shardCount_le
    unfold int32Max at this
    unfold hashTokenCount
    omega
  obtain ⟨i, hcalc, hi, hlo, hhi⟩ :=
    calculateUniformHashRangeIndex_of_mod_le hpos e.shardCount_le hrem hx
  refine ⟨i, hcalc, e.sortedShardIntervalArray[i], List.getElem?_eq_getElem hi, ?_⟩
  -- the interval at `i` carries range `i`, which holds the hash
  have hs := List.getElem?_eq_getElem hi
  obtain ⟨lo, hi', hmin, hmax⟩ := hsep.bounds_of_getElem? hs
  obtain ⟨hbmin, hbmax⟩ := e.bounds_of_uniform hflag hs
  rw [hmin] at hbmin
  rw [hmax] at hbmax
  simp only [Option.map_some, Option.getD_some,
    uniformHashRange_eq_mathHashRange hpos hle hi] at hbmin hbmax
  refine ⟨lo, hi', hmin, hmax, e.le_of_datumGetInt32_le hhash ?_,
    e.le_of_datumGetInt32_le hhash ?_⟩
  · rw [hbmin]
    exact hlo
  · rw [hbmax]
    exact hhi

variable [Inhabited α]

/-- `FindShardIntervalIndex`: `none` is `INVALID_SHARD_INDEX`. -/
def findShardIntervalIndex (cacheEntry : CitusTableCacheEntry β α) (searchedValue : α) :
    Except String (Option Nat) :=
  let shardCount := cacheEntry.sortedShardIntervalArray.length
  if shardCount = 0 then .ok none
  else if cacheEntry.partitionMethod = .hash then
    if !cacheEntry.hasUniformHashDistributionFlag then
      match searchCachedShardInterval searchedValue cacheEntry.sortedShardIntervalArray
          shardCount with
      | none => .error "cannot find shard interval"
      | some shardIndex => .ok (some shardIndex)
    else
      (calculateUniformHashRangeIndex (cacheEntry.datumGetInt32 searchedValue) shardCount).map
        some
  -- a table without distribution key has a single shard
  else if !cacheEntry.hasDistributionKey then .ok (some 0)
  else .ok (searchCachedShardInterval searchedValue cacheEntry.sortedShardIntervalArray shardCount)

/-- `FindShardInterval`; `none` is `NULL`. -/
def findShardInterval (cacheEntry : CitusTableCacheEntry β α) (partitionColumnValue : β) :
    Except String (Option (ShardInterval α)) := do
  let shardIndex ← findShardIntervalIndex cacheEntry (cacheEntry.searchedValue partitionColumnValue)
  pure (shardIndex.bind fun i => cacheEntry.sortedShardIntervalArray[i]?)

/-- `FindShardIntervalIndex` on a separated array of a table with a distribution
key: a result names where the value belongs, and an error means that no interval
holds it. On the uniform path this needs the remainder of the hash space to be at
most one range. -/
theorem findShardIntervalIndex_routesTo (hkey : e.hasDistributionKey = true)
    (hsep : Separated e.sortedShardIntervalArray)
    (hrem : e.partitionMethod = .hash → 0 < e.sortedShardIntervalArray.length →
      hashTokenCount % e.sortedShardIntervalArray.length ≤
        hashTokenCount / e.sortedShardIntervalArray.length)
    {x : α} (hx : e.partitionMethod = .hash → InInt32 (e.datumGetInt32 x)) :
    (∀ r, findShardIntervalIndex e x = .ok r → RoutesTo e.sortedShardIntervalArray x r) ∧
      (∀ msg, findShardIntervalIndex e x = .error msg →
        ∀ s ∈ e.sortedShardIntervalArray, ¬ s.Contains x) := by
  -- the bisection's answer, whichever method reads it
  have hsearch : ∀ r, searchCachedShardInterval x e.sortedShardIntervalArray
      e.sortedShardIntervalArray.length = r → RoutesTo e.sortedShardIntervalArray x r := by
    rintro (_ | i) hr
    · exact searchCachedShardInterval_eq_none hsep hr
    · exact searchCachedShardInterval_eq_some hsep hr
  unfold findShardIntervalIndex
  dsimp only
  by_cases hzero : e.sortedShardIntervalArray.length = 0
  · -- no shards: nothing holds the value
    rw [if_pos hzero]
    refine ⟨fun r hr => ?_, fun msg hmsg => nomatch hmsg⟩
    cases hr
    intro s hs
    rw [List.length_eq_zero_iff.mp hzero] at hs
    nomatch hs
  rw [if_neg hzero]
  by_cases hhash : e.partitionMethod = .hash
  · rw [if_pos hhash]
    cases hflag : e.hasUniformHashDistributionFlag
    · -- hash table, bisection
      rw [if_pos Bool.not_false]
      cases hs : searchCachedShardInterval x e.sortedShardIntervalArray
          e.sortedShardIntervalArray.length with
      | none => exact ⟨fun r hr => (nomatch hr), fun _ _ => hsearch none hs⟩
      | some i => exact ⟨fun r hr => by cases hr; exact hsearch _ hs, fun msg hmsg => nomatch hmsg⟩
    · -- hash table, division
      obtain ⟨i, hcalc, hroute⟩ := routesTo_calculateUniformHashRangeIndex e hsep hhash hflag
        (Nat.pos_of_ne_zero hzero) (hrem hhash (Nat.pos_of_ne_zero hzero)) (hx hhash)
      have huniform : ¬ (!true) = true := by decide
      rw [if_neg huniform, hcalc]
      refine ⟨fun r hr => ?_, fun msg hmsg => nomatch hmsg⟩
      cases hr
      exact hroute
  · -- range or append table, bisection
    have hkey' : ¬ (!e.hasDistributionKey) = true := by simp [hkey]
    rw [if_neg hhash, if_neg hkey']
    exact ⟨fun r hr => by cases hr; exact hsearch _ rfl, fun msg hmsg => nomatch hmsg⟩

/-- `FindShardInterval` on a table with a distribution key, separated intervals and,
for a hash table, at most `MAX_SHARD_COUNT` shards: a shard it returns holds the
searched value, no shard holds it when it returns none, and it raises an error
only on a hash table none of whose shards holds the hash. -/
theorem findShardInterval_correct (hkey : e.hasDistributionKey = true)
    (hsep : Separated e.sortedShardIntervalArray)
    (hcount : e.partitionMethod = .hash → e.sortedShardIntervalArray.length ≤ maxShardCount)
    (v : β) :
    (∀ s, findShardInterval e v = .ok (some s) →
      s ∈ e.sortedShardIntervalArray ∧ s.Contains (e.searchedValue v)) ∧
    (findShardInterval e v = .ok none →
      ∀ s ∈ e.sortedShardIntervalArray, ¬ s.Contains (e.searchedValue v)) ∧
    (∀ msg, findShardInterval e v = .error msg →
      ∀ s ∈ e.sortedShardIntervalArray, ¬ s.Contains (e.searchedValue v)) := by
  -- a hash is an `int32` value, and few shards leave a short remainder
  have hx : e.partitionMethod = .hash → InInt32 (e.datumGetInt32 (e.searchedValue v)) :=
    fun hhash => by
      unfold CitusTableCacheEntry.searchedValue
      rw [if_pos hhash]
      exact e.hashFunction_inInt32 hhash v
  have hrem : e.partitionMethod = .hash → 0 < e.sortedShardIntervalArray.length →
      hashTokenCount % e.sortedShardIntervalArray.length ≤
        hashTokenCount / e.sortedShardIntervalArray.length := fun hhash hpos =>
    hashTokenCount_mod_le_div hpos (Nat.le_trans (hcount hhash) (by decide))
  obtain ⟨hok, herr⟩ := findShardIntervalIndex_routesTo e hkey hsep hrem hx
  unfold findShardInterval
  cases hidx : findShardIntervalIndex e (e.searchedValue v) with
  | error msg =>
      refine ⟨fun s hs => (nomatch hs), fun hs => (nomatch hs), fun _ _ => herr msg hidx⟩
  | ok r =>
      have hroute := hok r hidx
      refine ⟨fun s hs => ?_, fun hs => ?_, fun msg hmsg => nomatch hmsg⟩
      · -- the index names the interval that was returned
        cases r with
        | none => nomatch hs
        | some i =>
            obtain ⟨t, ht, htcont⟩ := hroute
            have hst : t = s := by
              simpa [ht] using hs
            subst hst
            exact ⟨List.mem_iff_getElem?.mpr ⟨i, ht⟩, htcont⟩
      · cases r with
        | none => exact hroute
        | some i =>
            obtain ⟨t, ht, -⟩ := hroute
            simp [ht] at hs

end Find

section UniformTable

variable {β : Type} [LinearOrder β]

/-- A shard list carrying the `n` ranges has `n` shards. -/
theorem length_of_hashRanges {arr : List (ShardInterval Int)} {n : Nat}
    (harr : arr.map ShardInterval.bounds = (hashRanges n).map some) : arr.length = n := by
  simpa [hashRanges] using congrArg List.length harr

/-- The cache entry of a hash-distributed table whose `n` shards carry the `n`
equal ranges, such as a table created with `n` shards or split into them.
`hashFunction` is the column's hash support function; hash tables never read
`datumValue`. -/
def uniformHashCacheEntry (hashFunction : β → Int) (hhash : ∀ v, InInt32 (hashFunction v))
    (arr : List (ShardInterval Int)) (n : Nat) (hn : 0 < n) (hn32 : (n : Int) ≤ int32Max)
    (harr : arr.map ShardInterval.bounds = (hashRanges n).map some) :
    CitusTableCacheEntry β Int where
  partitionMethod := .hash
  hashFunction := hashFunction
  datumValue := hashFunction
  datumGetInt32 := id
  sortedShardIntervalArray := arr
  sorted := (sorted_separated_of_partitionsInt32 harr
    (partitionsInt32_hashRanges hn (by unfold int32Max at hn32; unfold hashTokenCount; omega))).1
  hash_consistent := fun _ =>
    have hsep := (sorted_separated_of_partitionsInt32 harr
      (partitionsInt32_hashRanges hn (by unfold int32Max at hn32; unfold hashTokenCount; omega))).2
    ⟨hasUninitializedShardInterval_eq_false hsep.1, hasOverlappingShardInterval_eq_false hsep.2⟩
  none_single := fun h => nomatch h
  datumValue_compare := fun h => absurd rfl h
  datumGetInt32_compare := fun _ _ _ => rfl
  hashFunction_inInt32 := fun _ => hhash
  shardCount_le := by rw [length_of_hashRanges harr]; exact hn32

theorem uniformHashCacheEntry_sortedShardIntervalArray (hashFunction : β → Int)
    (hhash : ∀ v, InInt32 (hashFunction v)) (arr : List (ShardInterval Int)) (n : Nat)
    (hn : 0 < n) (hn32 : (n : Int) ≤ int32Max)
    (harr : arr.map ShardInterval.bounds = (hashRanges n).map some) :
    (uniformHashCacheEntry hashFunction hhash arr n hn hn32 harr).sortedShardIntervalArray = arr :=
  rfl

/-- A hash table with `65792` shards on the equal ranges, as two splits produce it
(the whole hash space at `63999` of its split points, then the last child at the
other `1792`, each split within `MAX_SHARD_COUNT` children). Routing reads
neither the shard ids nor, for a hashed value, the hash function; the latter is
the `int4` truncation here. -/
def splitHashCacheEntry : CitusTableCacheEntry Int Int :=
  uniformHashCacheEntry toInt32 toInt32_inInt32 (generateSyntheticShardIntervalArray 65792) 65792
    (by decide) (by decide) (generateSyntheticShardIntervalArray_bounds 65792)

/-- With `65792` shards the range length is `65280` and the last range has
`65536` extra tokens. The largest hash divides to `65793`, so the uniform path of
`FindShardIntervalIndex` raises its out-of-bounds error, although the last shard
holds the hash and the bisection finds it. -/
theorem findShardIntervalIndex_splitHashCacheEntry_int32Max :
    findShardIntervalIndex splitHashCacheEntry int32Max =
        .error "bug: shard index 65793 out of bounds" ∧
      RoutesTo splitHashCacheEntry.sortedShardIntervalArray int32Max (some 65791) ∧
      searchCachedShardInterval int32Max splitHashCacheEntry.sortedShardIntervalArray 65792 =
        some 65791 := by
  have harr : splitHashCacheEntry.sortedShardIntervalArray =
      generateSyntheticShardIntervalArray 65792 := by
    unfold splitHashCacheEntry
    rw [uniformHashCacheEntry_sortedShardIntervalArray]
  have hhash : splitHashCacheEntry.partitionMethod = .hash := rfl
  have hbounds := generateSyntheticShardIntervalArray_bounds 65792
  rw [← harr] at hbounds
  have hlen : splitHashCacheEntry.sortedShardIntervalArray.length = 65792 :=
    length_of_hashRanges hbounds
  have hflag : splitHashCacheEntry.hasUniformHashDistributionFlag = true := by
    unfold CitusTableCacheEntry.hasUniformHashDistributionFlag
    rw [if_pos hhash]
    exact hasUniformHashDistribution_of_bounds (by decide) hbounds
  have hsep : Separated splitHashCacheEntry.sortedShardIntervalArray :=
    splitHashCacheEntry.separated_of_flag
      (splitHashCacheEntry.hasOverlappingShardIntervalFlag_of_hash rfl)
  -- the last shard runs from its first token to the largest hash
  have hs : splitHashCacheEntry.sortedShardIntervalArray[65791]? =
      some ⟨invalidShardId, some (shardMinHashToken (hashTokenCount / 65792) 65791),
        some int32Max⟩ := by
    simp [harr, generateSyntheticShardIntervalArray, uniformHashRange]
  have hcont : ShardInterval.Contains ⟨invalidShardId,
      some (shardMinHashToken (hashTokenCount / 65792) 65791), some int32Max⟩ int32Max :=
    ⟨_, _, rfl, rfl, (toInt32_inInt32 _).2, le_refl _⟩
  -- the uniform path computes the out-of-bounds index
  have hcalc : calculateUniformHashRangeIndex int32Max 65792 =
      .error "bug: shard index 65793 out of bounds" := by decide
  have huniform : ¬ (!true) = true := by decide
  refine ⟨?_, ⟨_, hs, hcont⟩, hlen ▸ searchCachedShardInterval_of_contains hsep hs hcont⟩
  unfold findShardIntervalIndex
  dsimp only
  rw [hlen, if_neg (by decide), if_pos hhash, hflag, if_neg huniform]
  show Except.map some (calculateUniformHashRangeIndex int32Max 65792) = _
  rw [hcalc]
  rfl

end UniformTable

end Citus.Shard
