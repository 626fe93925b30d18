import Mathlib

/-!
# The causal clock of one node

Every node keeps a hybrid logical clock in shared memory (`causal_clock.c`): a
logical part, the wall clock in milliseconds when the clock is idle, and a counter
that ticks within one millisecond. `GetNextNodeClockValue` ticks the clock, takes the
larger of it and the wall clock, and persists the logical part in the sequence
`pg_dist_clock_logical_seq`; `AdjustLocalClock` moves the clock forward to a clock
received from another node; after a restart `InitClockAtFirstUse` starts the clock
from the larger of the wall clock and one above the persisted logical part.

The counter is a 32-bit field of which the clock uses 22 bits (`MAX_COUNTER`), and
`IncrementClusterClock` rolls it over into the logical part only when it is exactly
`MAX_COUNTER`. `cluster_clock_recv` reads the counter as any 32-bit value, so a node
adjusted to a clock whose counter is `2^32 - 1` ticks its counter round to `0`
(`getNextNodeClockValue_counter_wraps`).

## Implementation notes

* A wall-clock reading is the millisecond value `GetEpochTimeAsClock` computes; every
  call to it is a reading of its own, and readings may go backwards.
* The sequence is modelled by its last value: `setval` sets it, and `nextval` returns
  it plus one and keeps that. Both raise outside the sequence's bounds; an error ends
  the call, and what it wrote to shared memory before stays there.
* `GetNextNodeClockValue` calls `InitClockAtFirstUse` unless the backend has already
  done so; the call returns at once on an initialized clock, and a restart ends every
  backend, so the model calls it every time.
-/

namespace Citus.Clock

/-- `ClusterClock`. -/
structure ClusterClock where
  logical : UInt64
  counter : UInt32
  deriving DecidableEq, Repr

/-- `MAX_COUNTER`: `LOGICAL_MASK`, that is `(1U << COUNTER_BITS) - 1` with
`COUNTER_BITS = 22`. -/
def maxCounter : UInt32 := ((1 : UInt32) <<< 22) - 1

/-- `cluster_clock_cmp_internal`: the logical parts first, then the counters;
`1`, `0` or `-1`. -/
def clusterClockCmpInternal (clusterClock1 clusterClock2 : ClusterClock) : Int :=
  if clusterClock1.logical ≠ clusterClock2.logical then
    if clusterClock1.logical > clusterClock2.logical then 1 else -1
  else if clusterClock1.counter ≠ clusterClock2.counter then
    if clusterClock1.counter > clusterClock2.counter then 1 else -1
  else 0

/-- `citus_is_clock_after`. -/
def citusIsClockAfter (clock1 clock2 : ClusterClock) : Bool :=
  clusterClockCmpInternal clock1 clock2 > 0

/-- `GetEpochTimeAsClock`, from the wall clock's reading in milliseconds. -/
def getEpochTimeAsClock (epochMilliseconds : UInt64) : ClusterClock :=
  ⟨epochMilliseconds, 0⟩

/-- `IncrementClusterClock`: the counter ticks, and at `MAX_COUNTER` it is reset and
the logical part ticks. -/
def incrementClusterClock (clusterClock : ClusterClock) : ClusterClock :=
  if clusterClock.counter = maxCounter then ⟨clusterClock.logical + 1, 0⟩
  else { clusterClock with counter := clusterClock.counter + 1 }

/-- `LargerClock` of two clocks: the first if it is after the second. -/
def largerClock (clock1 clock2 : ClusterClock) : ClusterClock :=
  if clusterClockCmpInternal clock1 clock2 > 0 then clock1 else clock2

/-- `ClockState`. -/
inductive ClockState
  | initialized
  | uninitialized
  deriving DecidableEq, Repr

/-- A node's clock: the shared memory of `LogicalClockShmemData` and the last value
of the sequence `pg_dist_clock_logical_seq`. -/
structure NodeClock where
  clusterClockValue : ClusterClock
  clockInitialized : ClockState
  logicalSequence : UInt64
  deriving DecidableEq, Repr

namespace NodeClock

/-- `setval` on `pg_dist_clock_logical_seq`, created with `START 1` and so bounded by
`MINVALUE 1` and `MAXVALUE 2^63 - 1`: the logical part, passed as `int64`, is out of
bounds below 1 and from `2^63` on, where it reads as negative. -/
def setvalInBounds (logical : UInt64) : Bool :=
  decide (1 ≤ logical.toNat ∧ logical.toNat < 2 ^ 63)

/-- `SAVE_AND_PERSIST`: shared memory takes the clock, then `setval` sets its logical
part on the sequence. `false` when `setval` raises; shared memory, which the abort does
not roll back, keeps the clock. -/
def saveAndPersist (node : NodeClock) (clock : ClusterClock) : NodeClock × Bool :=
  if setvalInBounds clock.logical then
    ({ node with clusterClockValue := clock, logicalSequence := clock.logical }, true)
  else ({ node with clusterClockValue := clock }, false)

/-- `InitClockAtFirstUse`, with the wall clock's reading: the clock starts from the
wall clock, or from one above the persisted logical part if that is later. A
sequence value of `1` means no clock was persisted before. `false` when `nextval` or
`setval` raises, which leaves the clock uninitialized. -/
def initClockAtFirstUse (node : NodeClock) (epochMilliseconds : UInt64) : NodeClock × Bool :=
  if node.clockInitialized = .initialized then (node, true)
  else
    let epochValue := getEpochTimeAsClock epochMilliseconds
    let node := { node with clusterClockValue := epochValue }
    -- `nextval` raises once the sequence has reached its `MAXVALUE`
    if 2 ^ 63 - 1 ≤ node.logicalSequence.toNat then (node, false)
    else
      let persistedMaxClock : ClusterClock := ⟨node.logicalSequence + 1, 0⟩
      let node := { node with logicalSequence := persistedMaxClock.logical }
      let (node, persisted) :=
        if persistedMaxClock.logical ≠ 1 ∧ clusterClockCmpInternal persistedMaxClock epochValue > 0
        then node.saveAndPersist persistedMaxClock
        else (node, true)
      if persisted then ({ node with clockInitialized := .initialized }, true) else (node, false)

/-- `GetNextNodeClockValue`, with the wall clock's reading at the call and the one
`InitClockAtFirstUse` takes: the clock ticks, the larger of it and the wall clock is
saved and returned; `none` when the call raises. -/
def getNextNodeClockValue (node : NodeClock) (epochMilliseconds initMilliseconds : UInt64) :
    NodeClock × Option ClusterClock :=
  let epochValue := getEpochTimeAsClock epochMilliseconds
  let (node, initialized) := node.initClockAtFirstUse initMilliseconds
  if initialized then
    let clockValue := largerClock (incrementClusterClock node.clusterClockValue) epochValue
    let (node, persisted) := node.saveAndPersist clockValue
    (node, if persisted then some clockValue else none)
  else (node, none)

/-- `AdjustLocalClock`: the clock moves to the remote clock if that is later; `false`
when `setval` raises. -/
def adjustLocalClock (node : NodeClock) (remoteClock : ClusterClock) : NodeClock × Bool :=
  if clusterClockCmpInternal node.clusterClockValue remoteClock ≥ 0 then (node, true)
  else node.saveAndPersist remoteClock

/-- `LogicalClockShmemInit` after a restart: shared memory is zeroed and the clock
uninitialized; the sequence keeps its value. -/
def logicalClockShmemInit (node : NodeClock) : NodeClock :=
  { clusterClockValue := ⟨0, 0⟩, clockInitialized := .uninitialized,
    logicalSequence := node.logicalSequence }

end NodeClock

/-- A freshly created node: shared memory zeroed and a new sequence. -/
def freshNodeClock : NodeClock := ⟨⟨0, 0⟩, .uninitialized, 0⟩

/-! ## The clock order

`cluster_clock_cmp_internal` orders clocks lexicographically, which is the order of
`ClusterClock.key`, the clock read as one 96-bit number. -/

namespace ClusterClock

/-- The clock as one number: the logical part above the 32 bits of the counter. -/
def key (clock : ClusterClock) : Nat := clock.logical.toNat * 2 ^ 32 + clock.counter.toNat

instance : LT ClusterClock := ⟨fun clock1 clock2 => clusterClockCmpInternal clock1 clock2 < 0⟩

instance : LE ClusterClock := ⟨fun clock1 clock2 => clusterClockCmpInternal clock1 clock2 ≤ 0⟩

theorem key_lt_key_iff {clock1 clock2 : ClusterClock} :
    clock1.key < clock2.key ↔ clock1.logical.toNat < clock2.logical.toNat ∨
      clock1.logical.toNat = clock2.logical.toNat ∧ clock1.counter.toNat < clock2.counter.toNat := by
  have hcounter1 := clock1.counter.toNat_lt
  have hcounter2 := clock2.counter.toNat_lt
  unfold key
  constructor
  · intro hlt
    rcases Nat.lt_trichotomy clock1.logical.toNat clock2.logical.toNat with hl | hl | hl
    · exact Or.inl hl
    · exact Or.inr ⟨hl, by rw [hl] at hlt; omega⟩
    · have : (clock2.logical.toNat + 1) * 2 ^ 32 ≤ clock1.logical.toNat * 2 ^ 32 :=
        Nat.mul_le_mul_right _ hl
      omega
  · rintro (hl | ⟨hl, hc⟩)
    · have : (clock1.logical.toNat + 1) * 2 ^ 32 ≤ clock2.logical.toNat * 2 ^ 32 :=
        Nat.mul_le_mul_right _ hl
      omega
    · rw [hl]
      omega

theorem key_injective : Function.Injective key := by
  intro clock1 clock2 hkey
  have hlogical : clock1.logical.toNat = clock2.logical.toNat := by
    by_contra hne
    rcases Nat.lt_or_gt_of_ne hne with hl | hl
    · exact absurd hkey (Nat.ne_of_lt (key_lt_key_iff.mpr (Or.inl hl)))
    · exact absurd hkey (Nat.ne_of_gt (key_lt_key_iff.mpr (Or.inl hl)))
  have hcounter : clock1.counter.toNat = clock2.counter.toNat := by
    unfold key at hkey
    omega
  cases clock1
  cases clock2
  simp only [mk.injEq]
  exact ⟨UInt64.toNat_inj.mp hlogical, UInt32.toNat_inj.mp hcounter⟩

/-- `cluster_clock_cmp_internal` is the comparison of keys. -/
theorem clusterClockCmpInternal_eq (clock1 clock2 : ClusterClock) :
    clusterClockCmpInternal clock1 clock2 =
      if clock2.key < clock1.key then 1 else if clock1.key < clock2.key then -1 else 0 := by
  have hcounter1 := clock1.counter.toNat_lt
  have hcounter2 := clock2.counter.toNat_lt
  unfold clusterClockCmpInternal
  simp only [ne_eq, gt_iff_lt, key_lt_key_iff, ← UInt64.toNat_inj, ← UInt32.toNat_inj,
    UInt64.lt_iff_toNat_lt, UInt32.lt_iff_toNat_lt]
  split_ifs <;> omega

@[simp] theorem lt_iff_key {clock1 clock2 : ClusterClock} : clock1 < clock2 ↔ clock1.key < clock2.key := by
  change clusterClockCmpInternal clock1 clock2 < 0 ↔ _
  rw [clusterClockCmpInternal_eq]
  split_ifs <;> omega

@[simp] theorem le_iff_key {clock1 clock2 : ClusterClock} : clock1 ≤ clock2 ↔ clock1.key ≤ clock2.key := by
  change clusterClockCmpInternal clock1 clock2 ≤ 0 ↔ _
  rw [clusterClockCmpInternal_eq]
  split_ifs <;> omega

end ClusterClock

open ClusterClock

@[simp] theorem citusIsClockAfter_iff {clock1 clock2 : ClusterClock} :
    citusIsClockAfter clock1 clock2 = true ↔ clock2 < clock1 := by
  unfold citusIsClockAfter
  rw [lt_iff_key, clusterClockCmpInternal_eq]
  split_ifs <;> simp_all

/-- `LargerClock` is the maximum in the clock order. -/
theorem key_largerClock (clock1 clock2 : ClusterClock) :
    (largerClock clock1 clock2).key = max clock1.key clock2.key := by
  unfold largerClock
  rw [clusterClockCmpInternal_eq]
  split_ifs <;> omega

theorem largerClock_eq_or (clock1 clock2 : ClusterClock) :
    largerClock clock1 clock2 = clock1 ∨ largerClock clock1 clock2 = clock2 := by
  unfold largerClock
  split_ifs
  · exact Or.inl rfl
  · exact Or.inr rfl

/-- A counter in the range `MAX_COUNTER` bounds. -/
def ClusterClock.CounterInRange (clock : ClusterClock) : Prop := clock.counter ≤ maxCounter

theorem maxCounter_toNat : maxCounter.toNat = 4194303 := by decide

theorem incrementClusterClock_counterInRange {clock : ClusterClock}
    (hclock : clock.CounterInRange) : (incrementClusterClock clock).CounterInRange := by
  unfold incrementClusterClock ClusterClock.CounterInRange at *
  rw [UInt32.le_iff_toNat_le, maxCounter_toNat] at hclock ⊢
  split_ifs with hmax
  · simp
  · have hne : clock.counter.toNat ≠ 4194303 := by
      rw [← maxCounter_toNat]
      exact fun h => hmax (UInt32.toNat_inj.mp h)
    simp only [UInt32.toNat_add, UInt32.toNat_one]
    omega

/-- The tick of a clock whose counter is in range and whose logical part can still
tick moves it forward, and its logical part by at most one. -/
theorem key_lt_incrementClusterClock {clock : ClusterClock} (hclock : clock.CounterInRange)
    (hlogical : clock.logical.toNat + 1 < 2 ^ 64) :
    clock.key < (incrementClusterClock clock).key ∧
      (incrementClusterClock clock).logical.toNat ≤ clock.logical.toNat + 1 := by
  unfold ClusterClock.CounterInRange at hclock
  rw [UInt32.le_iff_toNat_le, maxCounter_toNat] at hclock
  unfold incrementClusterClock
  split_ifs with hmax
  · have hnext : (clock.logical + 1).toNat = clock.logical.toNat + 1 := by
      rw [UInt64.toNat_add, UInt64.toNat_one, Nat.mod_eq_of_lt hlogical]
    refine ⟨key_lt_key_iff.mpr (Or.inl ?_), ?_⟩ <;> simp only [hnext] <;> omega
  · have hne : clock.counter.toNat ≠ 4194303 := by
      rw [← maxCounter_toNat]
      exact fun h => hmax (UInt32.toNat_inj.mp h)
    have hnext : (clock.counter + 1).toNat = clock.counter.toNat + 1 := by
      rw [UInt32.toNat_add, UInt32.toNat_one]
      omega
    exact ⟨key_lt_key_iff.mpr (Or.inr ⟨rfl, by simp only [hnext]; omega⟩), Nat.le_succ _⟩

theorem incrementClusterClock_logical_le {clock : ClusterClock}
    (hlogical : clock.logical.toNat + 1 < 2 ^ 64) :
    (incrementClusterClock clock).logical.toNat ≤ clock.logical.toNat + 1 := by
  unfold incrementClusterClock
  split_ifs
  · change (clock.logical + 1).toNat ≤ clock.logical.toNat + 1
    have hsum : (clock.logical + 1).toNat = clock.logical.toNat + 1 := by
      rw [UInt64.toNat_add, UInt64.toNat_one, Nat.mod_eq_of_lt hlogical]
    exact Nat.le_of_eq hsum
  · exact Nat.le_succ _

/-- Below `MAX_COUNTER` the tick leaves the logical part alone. -/
theorem incrementClusterClock_logical_of_ne {clock : ClusterClock} (hne : clock.counter ≠ maxCounter) :
    (incrementClusterClock clock).logical = clock.logical := by
  unfold incrementClusterClock
  rw [if_neg hne]

theorem largerClock_logical_le {clock1 clock2 : ClusterClock} {bound : Nat}
    (h1 : clock1.logical.toNat ≤ bound) (h2 : clock2.logical.toNat ≤ bound) :
    (largerClock clock1 clock2).logical.toNat ≤ bound := by
  rcases largerClock_eq_or clock1 clock2 with h | h <;> rw [h] <;> assumption

theorem largerClock_counterInRange {clock1 clock2 : ClusterClock} (h1 : clock1.CounterInRange)
    (h2 : clock2.CounterInRange) : (largerClock clock1 clock2).CounterInRange := by
  rcases largerClock_eq_or clock1 clock2 with h | h <;> rw [h] <;> assumption

theorem getEpochTimeAsClock_counterInRange (epochMilliseconds : UInt64) :
    (getEpochTimeAsClock epochMilliseconds).CounterInRange := by
  unfold getEpochTimeAsClock ClusterClock.CounterInRange
  exact UInt32.zero_le

/-! ## Runs of one node -/

/-- What happens to a node's clock. -/
inductive ClockEvent
  /-- `citus_get_node_clock`, with the two wall-clock readings of the call. -/
  | getNextNodeClockValue (epochMilliseconds initMilliseconds : UInt64)
  /-- `citus_internal_adjust_local_clock_to_remote` with a received clock. -/
  | adjustLocalClock (remoteClock : ClusterClock)
  | restart

/-- What the node's callers see: a clock it returned, or a clock it was adjusted to. -/
inductive ClockObservation
  | returned (clock : ClusterClock)
  | adjustedTo (clock : ClusterClock)
  deriving DecidableEq, Repr

/-- The clock of an observation. -/
def ClockObservation.clock : ClockObservation → ClusterClock
  | .returned clock => clock
  | .adjustedTo clock => clock

/-- One event on a node, with what its callers observe: a call that raises returns
nothing. -/
def clockStep (node : NodeClock) : ClockEvent → NodeClock × List ClockObservation
  | .getNextNodeClockValue epochMilliseconds initMilliseconds =>
      let (node, clockValue) := node.getNextNodeClockValue epochMilliseconds initMilliseconds
      (node, clockValue.toList.map .returned)
  | .adjustLocalClock remoteClock =>
      let (node, adjusted) := node.adjustLocalClock remoteClock
      (node, if adjusted then [.adjustedTo remoteClock] else [])
  | .restart => (node.logicalClockShmemInit, [])

/-- The observations of a run of events on a node, in order. -/
def clockObservations (node : NodeClock) : List ClockEvent → List ClockObservation
  | [] => []
  | event :: events =>
      (clockStep node event).2 ++ clockObservations (clockStep node event).1 events

/-- Every clock a node returns is after every clock observed before it. -/
def ReturnsIncreasingClocks (observations : List ClockObservation) : Prop :=
  ∀ earlier clock later, observations = earlier ++ .returned clock :: later →
    ∀ observation ∈ earlier, citusIsClockAfter clock observation.clock = true

/-- A node that returned `(100, 1)` and was then adjusted to `(100, 2^32 - 1)`, a clock
`cluster_clock_recv` accepts, ticks its counter past `2^32 - 1` to `0` and returns
`(100, 0)`, which is before both. -/
theorem getNextNodeClockValue_counter_wraps :
    clockObservations freshNodeClock
        [.getNextNodeClockValue 100 100, .adjustLocalClock ⟨100, 4294967295⟩,
          .getNextNodeClockValue 100 100] =
      [.returned ⟨100, 1⟩, .adjustedTo ⟨100, 4294967295⟩, .returned ⟨100, 0⟩] ∧
    ¬ ReturnsIncreasingClocks
      [.returned ⟨100, 1⟩, .adjustedTo ⟨100, 4294967295⟩, .returned ⟨100, 0⟩] := by
  refine ⟨by decide, ?_⟩
  intro hincreasing
  have hafter := hincreasing [.returned ⟨100, 1⟩, .adjustedTo ⟨100, 4294967295⟩] ⟨100, 0⟩ []
    rfl (.returned ⟨100, 1⟩) (by simp)
  exact absurd hafter (by decide)

end Citus.Clock
