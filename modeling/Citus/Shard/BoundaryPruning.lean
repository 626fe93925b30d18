import Citus.Shard.Pruning

/-!
# Pruning with boundaries against pruning shard by shard

`PruneOne` prunes an instance without equality over intervals that do not overlap
with `PruneWithBoundaries`: the tighter of the `>`/`>=` bounds and of the `<`/`<=`
bounds, a bisection for the first shard the lower bound keeps
(`LowerShardBoundary`) and one for the last shard the upper bound keeps
(`UpperShardBoundary`), and the shards between them. `ExhaustivePrune` checks every
shard against every bound.

On sorted, disjoint intervals each of whose min value is at most its max value the
two return the same list (`pruneWithBoundaries_eq_exhaustivePrune`). The lower
bound keeps a suffix of the array and the upper bound a prefix, so the shards both
keep are a window, and the bisections find its two ends. An interval whose min
value exceeds its max value breaks the first step: `LowerShardBoundary` reads a
value below its min value as lying left of it and keeps it, while its max value
fails the bound (`pruneWithBoundaries_inverted_interval`).
-/

namespace Citus.Shard

open Bisection

section Bounds

variable {α : Type} [LinearOrder α]

/-- A value satisfies a lower bound `(bound, inclusive)`; `none` is no bound. -/
def LowerBoundHolds : Option (α × Bool) → α → Prop
  | none, _ => True
  | some (bound, true), value => bound ≤ value
  | some (bound, false), value => bound < value

/-- A value satisfies an upper bound `(bound, inclusive)`; `none` is no bound. -/
def UpperBoundHolds : Option (α × Bool) → α → Prop
  | none, _ => True
  | some (bound, true), value => value ≤ bound
  | some (bound, false), value => value < bound

/-- An interval's min value is at most its max value. -/
def ShardInterval.Ordered (s : ShardInterval α) : Prop :=
  ∀ lo hi, s.minValue = some lo → s.maxValue = some hi → lo ≤ hi

instance (s : ShardInterval α) : Decidable s.Ordered :=
  match hmin : s.minValue, hmax : s.maxValue with
  | some lo, some hi =>
      decidable_of_iff (lo ≤ hi) (by simp [ShardInterval.Ordered, hmin, hmax])
  | none, _ => isTrue (by simp [ShardInterval.Ordered, hmin])
  | some _, none => isTrue (by simp [ShardInterval.Ordered, hmax])

/-- Some value of the interval satisfies the lower bound: its max value does. -/
def ShardInterval.AboveLower (lowerBound : Option (α × Bool)) (s : ShardInterval α) : Prop :=
  ∃ hi, s.maxValue = some hi ∧ LowerBoundHolds lowerBound hi

/-- Some value of the interval satisfies the upper bound: its min value does. -/
def ShardInterval.BelowUpper (upperBound : Option (α × Bool)) (s : ShardInterval α) : Prop :=
  ∃ lo, s.minValue = some lo ∧ UpperBoundHolds upperBound lo

/-- A boundary index at which the intervals `keep` holds of start: they are the
intervals from the index on, and there are none when the index is `none`. -/
def StartsAt (arr : List (ShardInterval α)) (keep : ShardInterval α → Prop) : Option Nat → Prop
  | some lowerIdx => ∀ i (hi : i < arr.length), lowerIdx ≤ i ↔ keep arr[i]
  | none => ∀ i (hi : i < arr.length), ¬ keep arr[i]

/-- A boundary index at which the intervals `keep` holds of end: they are the
intervals up to the index, and there are none when the index is `none`. -/
def EndsAt (arr : List (ShardInterval α)) (keep : ShardInterval α → Prop) : Option Nat → Prop
  | some upperIdx => ∀ i (hi : i < arr.length), i ≤ upperIdx ↔ keep arr[i]
  | none => ∀ i (hi : i < arr.length), ¬ keep arr[i]

end Bounds

section Searches

variable {α : Type} [LinearOrder α] [Inhabited α] {arr : List (ShardInterval α)}

theorem lowerShardBoundaryProbe_of_bounds {v : α} {includeMax : Bool} {i : Nat}
    {s : ShardInterval α} {lo hi : α} (hs : arr[i]? = some s) (hlo : s.minValue = some lo)
    (hhi : s.maxValue = some hi) :
    lowerShardBoundaryProbe v arr includeMax i =
      if v < lo then .left
      else if (v = hi ∧ includeMax = false) ∨ hi < v then .right else .found := by
  simp [lowerShardBoundaryProbe, hs, hlo, hhi, compare_lt_iff_lt, compare_gt_iff_gt]

theorem upperShardBoundaryProbe_of_bounds {v : α} {includeMin : Bool} {i : Nat}
    {s : ShardInterval α} {lo hi : α} (hs : arr[i]? = some s) (hlo : s.minValue = some lo)
    (hhi : s.maxValue = some hi) :
    upperShardBoundaryProbe v arr includeMin i =
      if (v = lo ∧ includeMin = false) ∨ v < lo then .left
      else if hi < v then .right else .found := by
  simp [upperShardBoundaryProbe, hs, hlo, hhi, compare_lt_iff_lt, compare_gt_iff_gt]

variable (hsep : Separated arr) (hord : ∀ s ∈ arr, s.Ordered)
include hsep hord

/-- The lower probe sends an index right exactly when its interval lies below the
bound; an interval left of the value lies above it because it is ordered. -/
theorem lowerShardBoundaryProbe_eq_right_iff (v : α) (includeMax : Bool) {i : Nat}
    (hi : i < arr.length) :
    lowerShardBoundaryProbe v arr includeMax i = .right ↔
      ¬ arr[i].AboveLower (some (v, includeMax)) := by
  obtain ⟨lo, hi', hlo, hhi⟩ := hsep.bounds_of_getElem? (List.getElem?_eq_getElem hi)
  have hle : lo ≤ hi' := hord arr[i] (List.getElem_mem hi) lo hi' hlo hhi
  rw [lowerShardBoundaryProbe_of_bounds (List.getElem?_eq_getElem hi) hlo hhi]
  simp only [ShardInterval.AboveLower, hhi, Option.some.injEq, exists_eq_left']
  cases includeMax <;> simp only [LowerBoundHolds] <;> split_ifs with hvlo hright <;>
    simp_all <;> grind

omit hord in
/-- The upper probe sends an index left exactly when its interval lies above the
bound. -/
theorem upperShardBoundaryProbe_eq_left_iff (v : α) (includeMin : Bool) {i : Nat}
    (hi : i < arr.length) :
    upperShardBoundaryProbe v arr includeMin i = .left ↔
      ¬ arr[i].BelowUpper (some (v, includeMin)) := by
  obtain ⟨lo, hi', hlo, hhi⟩ := hsep.bounds_of_getElem? (List.getElem?_eq_getElem hi)
  rw [upperShardBoundaryProbe_of_bounds (List.getElem?_eq_getElem hi) hlo hhi]
  simp only [ShardInterval.BelowUpper, hlo, Option.some.injEq, exists_eq_left']
  cases includeMin <;> simp only [UpperBoundHolds] <;> split_ifs <;> simp_all <;> grind

/-- Once the lower bound keeps an interval, the probe sends every later index left:
the later interval starts above the kept one's max value, which reaches the bound. -/
theorem lowerShardBoundaryProbe_eq_left_of_lt (v : α) (includeMax : Bool) {i j : Nat}
    (hij : i < j) (hj : j < arr.length)
    (hkept : lowerShardBoundaryProbe v arr includeMax i ≠ .right) :
    lowerShardBoundaryProbe v arr includeMax j = .left := by
  have hi : i < arr.length := Nat.lt_trans hij hj
  obtain ⟨hi', hmax, hbound⟩ := not_not.mp
    ((lowerShardBoundaryProbe_eq_right_iff hsep hord v includeMax hi).not.mp hkept)
  obtain ⟨amin, amax, bmin, bmax, -, hamax, hbmin, hbmax, -, hlt⟩ :=
    hsep.before (List.getElem?_eq_getElem hi) (List.getElem?_eq_getElem hj) hij
  obtain rfl : hi' = amax := Option.some.inj (hmax.symm.trans hamax)
  have hv : v ≤ hi' := by
    cases includeMax with
    | true => exact hbound
    | false => exact le_of_lt hbound
  rw [lowerShardBoundaryProbe_of_bounds (List.getElem?_eq_getElem hj) hbmin hbmax,
    if_pos (lt_of_le_of_lt hv hlt)]

/-- Once the upper bound keeps an interval, the probe sends every earlier index
right: the earlier interval ends below the kept one's min value. -/
theorem upperShardBoundaryProbe_eq_right_of_lt (v : α) (includeMin : Bool) {i j : Nat}
    (hij : i < j) (hj : j < arr.length)
    (hkept : upperShardBoundaryProbe v arr includeMin j ≠ .left) :
    upperShardBoundaryProbe v arr includeMin i = .right := by
  have hi : i < arr.length := Nat.lt_trans hij hj
  obtain ⟨lo', hmin, hbound⟩ := not_not.mp
    ((upperShardBoundaryProbe_eq_left_iff hsep v includeMin hj).not.mp hkept)
  obtain ⟨amin, amax, bmin, bmax, hamin, hamax, hbmin, -, -, hlt⟩ :=
    hsep.before (List.getElem?_eq_getElem hi) (List.getElem?_eq_getElem hj) hij
  obtain rfl : lo' = bmin := Option.some.inj (hmin.symm.trans hbmin)
  have hv : lo' ≤ v := by
    cases includeMin with
    | true => exact hbound
    | false => exact le_of_lt hbound
  have hord' : amin ≤ amax := hord arr[i] (List.getElem_mem hi) amin amax hamin hamax
  -- the value lies above the whole earlier interval
  have hvmax : amax < v := lt_of_lt_of_le hlt hv
  have hvmin : amin < v := lt_of_le_of_lt hord' hvmax
  have hnotLeft : ¬((v = amin ∧ includeMin = false) ∨ v < amin) := by
    rintro (⟨rfl, -⟩ | hlt')
    · exact lt_irrefl v hvmin
    · exact lt_asymm hlt' hvmin
  rw [upperShardBoundaryProbe_of_bounds (List.getElem?_eq_getElem hi) hamin hamax,
    if_neg hnotLeft, if_pos hvmax]

theorem lowerShardBoundaryProbe_monotone (v : α) (includeMax : Bool) :
    Monotone (lowerShardBoundaryProbe v arr includeMax) arr.length where
  left_up := by
    intro i j hij hj hleft
    rcases Nat.eq_or_lt_of_le hij with rfl | hlt
    · exact hleft
    · exact lowerShardBoundaryProbe_eq_left_of_lt hsep hord v includeMax hlt hj
        (by rw [hleft]; decide)
  right_down := by
    intro i j hij hj hright
    rcases Nat.eq_or_lt_of_le hij with rfl | hlt
    · exact hright
    · by_contra hkept
      rw [lowerShardBoundaryProbe_eq_left_of_lt hsep hord v includeMax hlt hj hkept] at hright
      cases hright

theorem upperShardBoundaryProbe_monotone (v : α) (includeMin : Bool) :
    Monotone (upperShardBoundaryProbe v arr includeMin) arr.length where
  left_up := by
    intro i j hij hj hleft
    rcases Nat.eq_or_lt_of_le hij with rfl | hlt
    · exact hleft
    · by_contra hkept
      rw [upperShardBoundaryProbe_eq_right_of_lt hsep hord v includeMin hlt hj hkept] at hleft
      cases hleft
  right_down := by
    intro i j hij hj hright
    rcases Nat.eq_or_lt_of_le hij with rfl | hlt
    · exact hright
    · exact upperShardBoundaryProbe_eq_right_of_lt hsep hord v includeMin hlt hj
        (by rw [hright]; decide)

/-- `LowerShardBoundary` finds the first interval the bound keeps, and the bound
keeps every interval from there on. -/
theorem startsAt_lowerShardBoundary (v : α) (includeMax : Bool) :
    StartsAt arr (·.AboveLower (some (v, includeMax)))
      (lowerShardBoundary v arr arr.length includeMax) := by
  have hkept : ∀ {i} (hi : i < arr.length), lowerShardBoundaryProbe v arr includeMax i ≠ .right →
      arr[i].AboveLower (some (v, includeMax)) :=
    fun hi h => not_not.mp ((lowerShardBoundaryProbe_eq_right_iff hsep hord v includeMax hi).not.mp h)
  have hright : ∀ {i} (hi : i < arr.length), lowerShardBoundaryProbe v arr includeMax i = .right →
      ¬ arr[i].AboveLower (some (v, includeMax)) :=
    fun hi => (lowerShardBoundaryProbe_eq_right_iff hsep hord v includeMax hi).mp
  unfold lowerShardBoundary
  split
  · next m hm =>
      -- the probed index is the first kept one: every later one is sent left
      obtain ⟨-, hm', hfound⟩ := search_found hm
      intro i hi
      constructor
      · intro hmi
        rcases Nat.eq_or_lt_of_le hmi with rfl | hlt
        · exact hkept hi (by rw [hfound]; decide)
        · exact hkept hi (by
            rw [lowerShardBoundaryProbe_eq_left_of_lt hsep hord v includeMax hlt hi
              (by rw [hfound]; decide)]
            decide)
      · intro hkeep
        by_contra hlt
        have hleft := lowerShardBoundaryProbe_eq_left_of_lt hsep hord v includeMax
          (Nat.lt_of_not_le hlt) hm' (fun h => hright hi h hkeep)
        rw [hfound] at hleft
        cases hleft
  · next k hk =>
      -- the window ends where the probes turn from right to left
      obtain ⟨hbelow, habove⟩ := search_exhausted_split
        (lowerShardBoundaryProbe_monotone hsep hord v includeMax) (Nat.le_refl _) (Nat.zero_le _) hk
      split_ifs with hkn
      · intro i hi
        exact hright hi (hbelow i (Nat.zero_le i) (hkn ▸ hi))
      · intro i hi
        constructor
        · intro hki
          exact hkept hi (by rw [habove i hki hi]; decide)
        · intro hkeep
          by_contra hlt
          exact hright hi (hbelow i (Nat.zero_le i) (Nat.lt_of_not_le hlt)) hkeep

/-- `UpperShardBoundary` finds the last interval the bound keeps, and the bound
keeps every interval before it. -/
theorem endsAt_upperShardBoundary (v : α) (includeMin : Bool) :
    EndsAt arr (·.BelowUpper (some (v, includeMin)))
      (upperShardBoundary v arr arr.length includeMin) := by
  have hkept : ∀ {i} (hi : i < arr.length), upperShardBoundaryProbe v arr includeMin i ≠ .left →
      arr[i].BelowUpper (some (v, includeMin)) :=
    fun hi h => not_not.mp ((upperShardBoundaryProbe_eq_left_iff hsep v includeMin hi).not.mp h)
  have hleft : ∀ {i} (hi : i < arr.length), upperShardBoundaryProbe v arr includeMin i = .left →
      ¬ arr[i].BelowUpper (some (v, includeMin)) :=
    fun hi => (upperShardBoundaryProbe_eq_left_iff hsep v includeMin hi).mp
  unfold upperShardBoundary
  split
  · next m hm =>
      -- the probed index is the last kept one: every earlier one is sent right
      obtain ⟨-, hm', hfound⟩ := search_found hm
      intro i hi
      constructor
      · intro him
        rcases Nat.eq_or_lt_of_le him with rfl | hlt
        · exact hkept hi (by rw [hfound]; decide)
        · exact hkept hi (by
            rw [upperShardBoundaryProbe_eq_right_of_lt hsep hord v includeMin hlt hm'
              (by rw [hfound]; decide)]
            decide)
      · intro hkeep
        by_contra hlt
        have hright := upperShardBoundaryProbe_eq_right_of_lt hsep hord v includeMin
          (Nat.lt_of_not_le hlt) hi (fun h => hleft hi h hkeep)
        rw [hfound] at hright
        cases hright
  · next k hk =>
      obtain ⟨hbelow, habove⟩ := search_exhausted_split
        (upperShardBoundaryProbe_monotone hsep hord v includeMin) (Nat.le_refl _) (Nat.zero_le _) hk
      split_ifs with hk0
      · intro i hi
        exact hleft hi (habove i (hk0 ▸ Nat.zero_le i) hi)
      · intro i hi
        constructor
        · intro hik
          exact hkept hi (by rw [hbelow i (Nat.zero_le i) (by omega)]; decide)
        · intro hkeep
          by_contra hlt
          exact hleft hi (habove i (by omega) hi) hkeep

end Searches

section PruneWithBoundaries

variable {β α : Type} [LinearOrder β] [LinearOrder α] [Inhabited α]
  (cacheEntry : CitusTableCacheEntry β α) (prune : PruningInstance β)

omit [Inhabited α] in
/-- The tighter of the `>=` and `>` bounds is both. -/
theorem lowerBoundHolds_pruneLowerBound (x : α) :
    LowerBoundHolds (pruneLowerBound cacheEntry prune) x ↔
      (∀ c ∈ prune.greaterEqualConsts, cacheEntry.datumValue c.constvalue ≤ x) ∧
        ∀ c ∈ prune.greaterConsts, cacheEntry.datumValue c.constvalue < x := by
  unfold pruneLowerBound
  cases hge : prune.greaterEqualConsts with
  | none =>
      cases hg : prune.greaterConsts <;> simp [LowerBoundHolds]
  | some greaterEqualConsts =>
      cases hg : prune.greaterConsts with
      | none => simp [LowerBoundHolds]
      | some greaterConsts =>
          simp only [Option.map_some, Option.mem_def, Option.some.injEq, forall_eq']
          by_cases hle : cacheEntry.datumValue greaterEqualConsts.constvalue ≤
              cacheEntry.datumValue greaterConsts.constvalue
          · -- `>` is at least `>=`: it implies it
            rw [if_pos (by simpa [compare_lt_iff_lt] using hle)]
            exact ⟨fun h => ⟨le_trans hle (le_of_lt h), h⟩, And.right⟩
          · -- `>=` is above `>`: it implies it
            rw [if_neg (by simpa [compare_lt_iff_lt] using hle)]
            exact ⟨fun h => ⟨h, lt_of_lt_of_le (lt_of_not_ge hle) h⟩, And.left⟩

omit [Inhabited α] in
/-- The tighter of the `<=` and `<` bounds is both. -/
theorem upperBoundHolds_pruneUpperBound (x : α) :
    UpperBoundHolds (pruneUpperBound cacheEntry prune) x ↔
      (∀ c ∈ prune.lessEqualConsts, x ≤ cacheEntry.datumValue c.constvalue) ∧
        ∀ c ∈ prune.lessConsts, x < cacheEntry.datumValue c.constvalue := by
  unfold pruneUpperBound
  cases hle : prune.lessEqualConsts with
  | none =>
      cases hl : prune.lessConsts <;> simp [UpperBoundHolds]
  | some lessEqualConsts =>
      cases hl : prune.lessConsts with
      | none => simp [UpperBoundHolds]
      | some lessConsts =>
          simp only [Option.map_some, Option.mem_def, Option.some.injEq, forall_eq']
          by_cases hge : cacheEntry.datumValue lessConsts.constvalue ≤
              cacheEntry.datumValue lessEqualConsts.constvalue
          · -- `<` is at most `<=`: it implies it
            rw [if_pos (by simpa [compare_gt_iff_gt] using hge)]
            exact ⟨fun h => ⟨le_trans (le_of_lt h) hge, h⟩, And.right⟩
          · -- `<=` is below `<`: it implies it
            rw [if_neg (by simpa [compare_gt_iff_gt] using hge)]
            exact ⟨fun h => ⟨h, lt_of_le_of_lt h (lt_of_not_ge hge)⟩, And.left⟩

omit [Inhabited α] in
/-- Without an equality, `ExhaustivePruneOne` keeps a complete interval exactly when
its max value satisfies the lower bounds and its min value the upper bounds. -/
theorem exhaustivePruneOne_eq_false_iff (hequal : prune.equalConsts = none)
    {s : ShardInterval α} (hs : s.hasNull = false) :
    exhaustivePruneOne cacheEntry s prune = false ↔
      s.AboveLower (pruneLowerBound cacheEntry prune) ∧
        s.BelowUpper (pruneUpperBound cacheEntry prune) := by
  obtain ⟨lo, hi, hlo, hhi⟩ := ShardInterval.hasNull_eq_false_iff.mp hs
  simp only [ShardInterval.AboveLower, ShardInterval.BelowUpper, hlo, hhi, Option.some.injEq,
    exists_eq_left', lowerBoundHolds_pruneLowerBound, upperBoundHolds_pruneUpperBound]
  cases hge : prune.greaterEqualConsts <;> cases hg : prune.greaterConsts <;>
    cases hle : prune.lessEqualConsts <;> cases hl : prune.lessConsts <;>
    simp [exhaustivePruneOne, hlo, hhi, hequal, hge, hg, hle, hl, compare_lt_iff_lt,
      compare_gt_iff_gt, and_assoc]

/-- `lowerBoundIdx` of `PruneWithBoundaries`. -/
def pruneLowerBoundIdx : Option Nat :=
  match pruneLowerBound cacheEntry prune with
  | some (lowerBound, lowerBoundInclusive) =>
      lowerShardBoundary lowerBound cacheEntry.sortedShardIntervalArray
        cacheEntry.sortedShardIntervalArray.length lowerBoundInclusive
  | none => some 0

/-- `upperBoundIdx` of `PruneWithBoundaries`. -/
def pruneUpperBoundIdx : Option Nat :=
  match pruneUpperBound cacheEntry prune with
  | some (upperBound, upperBoundInclusive) =>
      upperShardBoundary upperBound cacheEntry.sortedShardIntervalArray
        cacheEntry.sortedShardIntervalArray.length upperBoundInclusive
  | none => some (cacheEntry.sortedShardIntervalArray.length - 1)

theorem pruneWithBoundaries_eq :
    pruneWithBoundaries cacheEntry prune =
      match pruneLowerBoundIdx cacheEntry prune, pruneUpperBoundIdx cacheEntry prune with
      | some lowerBoundIdx, some upperBoundIdx =>
          (cacheEntry.sortedShardIntervalArray.take (upperBoundIdx + 1)).drop lowerBoundIdx
      | _, _ => [] := rfl

variable {cacheEntry} (hsep : Separated cacheEntry.sortedShardIntervalArray)
  (hord : ∀ s ∈ cacheEntry.sortedShardIntervalArray, s.Ordered)
include hsep hord

theorem startsAt_pruneLowerBoundIdx :
    StartsAt cacheEntry.sortedShardIntervalArray (·.AboveLower (pruneLowerBound cacheEntry prune))
      (pruneLowerBoundIdx cacheEntry prune) := by
  unfold pruneLowerBoundIdx
  split
  · next lowerBound lowerBoundInclusive hbound =>
      rw [hbound]
      exact startsAt_lowerShardBoundary hsep hord lowerBound lowerBoundInclusive
  · next hbound =>
      -- no lower bound: every complete interval is kept
      intro i hi
      obtain ⟨-, hi', -, hhi⟩ := hsep.bounds_of_getElem? (List.getElem?_eq_getElem hi)
      rw [hbound]
      exact ⟨fun _ => ⟨hi', hhi, trivial⟩, fun _ => Nat.zero_le i⟩

theorem endsAt_pruneUpperBoundIdx :
    EndsAt cacheEntry.sortedShardIntervalArray (·.BelowUpper (pruneUpperBound cacheEntry prune))
      (pruneUpperBoundIdx cacheEntry prune) := by
  unfold pruneUpperBoundIdx
  split
  · next upperBound upperBoundInclusive hbound =>
      rw [hbound]
      exact endsAt_upperShardBoundary hsep hord upperBound upperBoundInclusive
  · next hbound =>
      intro i hi
      obtain ⟨lo, -, hlo, -⟩ := hsep.bounds_of_getElem? (List.getElem?_eq_getElem hi)
      rw [hbound]
      exact ⟨fun _ => ⟨lo, hlo, trivial⟩, fun _ => by omega⟩

end PruneWithBoundaries

variable {β α : Type} [LinearOrder β] [LinearOrder α] [Inhabited α]

/-- On sorted, disjoint intervals each of whose min value is at most its max value,
`PruneWithBoundaries` returns, in array order, the shards `ExhaustivePrune` returns
for every instance without an equality. -/
theorem pruneWithBoundaries_eq_exhaustivePrune (cacheEntry : CitusTableCacheEntry β α)
    (prune : PruningInstance β) (hsep : Separated cacheEntry.sortedShardIntervalArray)
    (hord : ∀ s ∈ cacheEntry.sortedShardIntervalArray, s.Ordered)
    (hequal : prune.equalConsts = none) :
    pruneWithBoundaries cacheEntry prune = exhaustivePrune cacheEntry prune := by
  have hkeep : ∀ i (hi : i < cacheEntry.sortedShardIntervalArray.length),
      (!exhaustivePruneOne cacheEntry cacheEntry.sortedShardIntervalArray[i] prune) = true ↔
        cacheEntry.sortedShardIntervalArray[i].AboveLower (pruneLowerBound cacheEntry prune) ∧
          cacheEntry.sortedShardIntervalArray[i].BelowUpper (pruneUpperBound cacheEntry prune) := by
    intro i hi
    rw [Bool.not_eq_true', exhaustivePruneOne_eq_false_iff cacheEntry prune hequal
      (hsep.1 _ (List.getElem_mem hi))]
  have hL := startsAt_pruneLowerBoundIdx prune hsep hord
  have hU := endsAt_pruneUpperBoundIdx prune hsep hord
  rw [pruneWithBoundaries_eq]
  unfold exhaustivePrune
  cases hl : pruneLowerBoundIdx cacheEntry prune with
  | none =>
      -- the lower bound keeps no interval
      rw [hl] at hL
      refine (List.filter_eq_nil_iff.mpr fun s hs hkept => ?_).symm
      obtain ⟨i, hi, rfl⟩ := List.getElem_of_mem hs
      exact hL i hi ((hkeep i hi).mp hkept).1
  | some lowerBoundIdx =>
      cases hu : pruneUpperBoundIdx cacheEntry prune with
      | none =>
          -- the upper bound keeps no interval
          rw [hu] at hU
          refine (List.filter_eq_nil_iff.mpr fun s hs hkept => ?_).symm
          obtain ⟨i, hi, rfl⟩ := List.getElem_of_mem hs
          exact hU i hi ((hkeep i hi).mp hkept).2
      | some upperBoundIdx =>
          -- the kept intervals are the window between the two boundaries
          rw [hl] at hL
          rw [hu] at hU
          refine (filter_eq_drop_take (fun i hi hlt => ?_) (fun i hi hle => ?_)
            (fun i hi hle hlt => ?_)).symm
          · rw [← Bool.not_eq_true, hkeep i hi]
            exact fun h => absurd ((hL i hi).mpr h.1) (Nat.not_le_of_lt hlt)
          · rw [← Bool.not_eq_true, hkeep i hi]
            exact fun h => absurd ((hU i hi).mpr h.2) (by omega)
          · exact (hkeep i hi).mpr ⟨(hL i hi).mp hle, (hU i hi).mp (by omega)⟩

/-- On the table with shards `[0, 4]` and `[5, 9]`, `4 < col <= 7`. -/
theorem pruneWithBoundaries_eq_exhaustivePrune_twoRange :
    Separated twoRangeCacheEntry.sortedShardIntervalArray ∧
      (∀ s ∈ twoRangeCacheEntry.sortedShardIntervalArray, s.Ordered) ∧
      ({ greaterConsts := some ⟨4, false⟩, lessEqualConsts := some ⟨7, false⟩ } :
        PruningInstance Int).equalConsts = none ∧
      pruneWithBoundaries twoRangeCacheEntry
          { greaterConsts := some ⟨4, false⟩, lessEqualConsts := some ⟨7, false⟩ } =
        exhaustivePrune twoRangeCacheEntry
          { greaterConsts := some ⟨4, false⟩, lessEqualConsts := some ⟨7, false⟩ } := by
  have hsep := twoRangeCacheEntry.separated_of_flag (by decide)
  have hord : ∀ s ∈ twoRangeCacheEntry.sortedShardIntervalArray, s.Ordered := by decide
  exact ⟨hsep, hord, rfl, pruneWithBoundaries_eq_exhaustivePrune twoRangeCacheEntry _ hsep hord rfl⟩

/-- `col >= 4` on the inverted shard `[5, 3]`: `LowerShardBoundary` reads `4` as left
of the shard and keeps it, while `ExhaustivePrune` drops it because its max value
`3` is below `4`. The array is sorted and has no overlap, so `PruneOne` takes
`PruneWithBoundaries`. -/
theorem pruneWithBoundaries_inverted_interval :
    Separated invertedRangeCacheEntry.sortedShardIntervalArray ∧
      invertedRangeCacheEntry.hasOverlappingShardIntervalFlag = false ∧
      ({ greaterEqualConsts := some ⟨4, false⟩ } : PruningInstance Int).equalConsts = none ∧
      pruneWithBoundaries invertedRangeCacheEntry { greaterEqualConsts := some ⟨4, false⟩ } =
        [⟨1, some 5, some 3⟩] ∧
      exhaustivePrune invertedRangeCacheEntry { greaterEqualConsts := some ⟨4, false⟩ } = [] := by
  have hflag : invertedRangeCacheEntry.hasOverlappingShardIntervalFlag = false := by decide
  exact ⟨invertedRangeCacheEntry.separated_of_flag hflag, hflag, rfl, by decide +kernel,
    by decide⟩

end Citus.Shard
