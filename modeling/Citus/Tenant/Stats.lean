import Citus.Lib.MachineInt
import Citus.Lib.PeriodWindow
import Mathlib

/-!
# Tenant statistics

`citus_stat_tenants.c` keeps, for each tenant in the shared monitor, the number of its
`SELECT` queries and of its `INSERT`, `UPDATE` and `DELETE` queries, and its CPU time, in two
slots: the current period of `citus.stat_tenants_period` seconds and the last one. Beside
them is a score that each query raises by `ONE_QUERY_SCORE` and each period halves. The
slots are rolled over lazily, when the tenant is next touched: by a query attributed to it
(`AttributeMetricsIfApplicable`) or by a read of the statistics (`citus_stat_tenants_local`),
both through `UpdatePeriodsIfNecessary`.

That function moves the current slot into the last one when the last query was before the
current period and the current period counted a read or a write, and it empties the last
slot when the last query is a whole period or more before the current period's start. For a
tenant whose queries are reads and writes, none of them at the very start of a period, the
slots are the totals of the current and the last period after every run
(`tenantRun_periods`). A query at the very start of a period is emptied with the period it
belongs to, and the CPU time of a query of another command type is never moved
(`tenantRun_boundary_and_other_commands`).

## Implementation notes

* Times are `TimestampTz` microseconds, as `Int`, and C's `%` and `/` truncate (`Int.tmod`,
  `Int.tdiv`). The counts are `Nat`: their `int` overflow after 2^31 queries in a period is
  not modelled. CPU times are `ℚ`, with the `double` sums taken as exact; a query's CPU time
  (`QueryEndClock - QueryStartClock` over `CLOCKS_PER_SEC`) is an input of its event.
* `score >>= periodCountAfterLastScoreReduction` with a count of 64 or more is undefined in
  C. It is modelled as x86-64 and AArch64 execute it, with the count taken modulo 64. The
  `int` the period count is stored in keeps the `long long` quotient modulo 2^32
  (`toInt32`).
* One tenant that stays in the monitor is modelled. A run starts with no entry; the first
  query creates it (`CreateTenantStats`, which leaves `lastQueryTime` as the reused hash
  entry held it: a parameter here), and reads before that do nothing.
-/

namespace Citus.StatTenants

open MachineInt PeriodWindow

/-- `CmdType`. -/
inductive CmdType
  | cmdUnknown
  | cmdSelect
  | cmdUpdate
  | cmdInsert
  | cmdDelete
  | cmdMerge
  | cmdUtility
  | cmdNothing
  deriving DecidableEq, Repr

/-- `USECS_PER_SEC`. -/
def usecsPerSec : Int := 1000000

/-- `ONE_QUERY_SCORE`. -/
def oneQueryScore : Int := 1000000000

/-- A tenant's `TenantStats`, without its hash key and its lock. -/
structure TenantStats where
  readsInLastPeriod : Nat
  readsInThisPeriod : Nat
  writesInLastPeriod : Nat
  writesInThisPeriod : Nat
  cpuUsageInLastPeriod : ℚ
  cpuUsageInThisPeriod : ℚ
  lastQueryTime : Int
  score : Int
  lastScoreReduction : Int
  deriving DecidableEq, Repr

/-- `TimestampDifferenceExceeds` of PostgreSQL. -/
def timestampDifferenceExceeds (startTime stopTime msec : Int) : Bool :=
  decide (msec * 1000 ≤ stopTime - startTime)

/-- The start of the period a time falls in: `queryTime - (queryTime % periodInMicroSeconds)`. -/
def periodStart (statTenantsPeriod queryTime : Int) : Int :=
  queryTime - queryTime.tmod (statTenantsPeriod * usecsPerSec)

/-- `UpdatePeriodsIfNecessary`. -/
def updatePeriodsIfNecessary (statTenantsPeriod : Int) (tenantStats : TenantStats)
    (queryTime : Int) : TenantStats :=
  let periodInMilliSeconds := statTenantsPeriod * 1000
  let start := periodStart statTenantsPeriod queryTime
  let tenantStats :=
    if tenantStats.lastQueryTime < start ∧
        (tenantStats.writesInThisPeriod ≠ 0 ∨ tenantStats.readsInThisPeriod ≠ 0) then
      { tenantStats with
        writesInLastPeriod := tenantStats.writesInThisPeriod
        writesInThisPeriod := 0
        readsInLastPeriod := tenantStats.readsInThisPeriod
        readsInThisPeriod := 0
        cpuUsageInLastPeriod := tenantStats.cpuUsageInThisPeriod
        cpuUsageInThisPeriod := 0 }
    else tenantStats
  if timestampDifferenceExceeds tenantStats.lastQueryTime start periodInMilliSeconds then
    { tenantStats with writesInLastPeriod := 0, readsInLastPeriod := 0, cpuUsageInLastPeriod := 0 }
  else tenantStats

/-- `ReduceScoreIfNecessary`: the score is halved once for each period started since the
last reduction. -/
def reduceScoreIfNecessary (statTenantsPeriod : Int) (tenantStats : TenantStats)
    (queryTime : Int) : TenantStats :=
  let periodInMicroSeconds := statTenantsPeriod * usecsPerSec
  let start := periodStart statTenantsPeriod queryTime
  let periodCountAfterLastScoreReduction :=
    toInt32 ((start - tenantStats.lastScoreReduction + periodInMicroSeconds - 1).tdiv
      periodInMicroSeconds)
  let periodCountAfterLastScoreReduction :=
    if periodCountAfterLastScoreReduction < 0 then 0 else periodCountAfterLastScoreReduction
  if 0 < periodCountAfterLastScoreReduction then
    { tenantStats with
      score := tenantStats.score >>> (periodCountAfterLastScoreReduction.toNat % 64)
      lastScoreReduction := queryTime }
  else tenantStats

/-- `RecordTenantStats`, for a query of the given command type and CPU time. -/
def recordTenantStats (tenantStats : TenantStats) (queryTime : Int)
    (attributeToCommandType : CmdType) (queryCpuTime : ℚ) : TenantStats :=
  let score :=
    if tenantStats.score < int64Max - oneQueryScore then tenantStats.score + oneQueryScore
    else int64Max
  let tenantStats := { tenantStats with score }
  let tenantStats :=
    if attributeToCommandType = .cmdSelect then
      { tenantStats with readsInThisPeriod := tenantStats.readsInThisPeriod + 1 }
    else if attributeToCommandType = .cmdUpdate ∨ attributeToCommandType = .cmdInsert ∨
        attributeToCommandType = .cmdDelete then
      { tenantStats with writesInThisPeriod := tenantStats.writesInThisPeriod + 1 }
    else tenantStats
  { tenantStats with
    cpuUsageInThisPeriod := tenantStats.cpuUsageInThisPeriod + queryCpuTime
    lastQueryTime := queryTime }

/-- `CreateTenantStats`: `lastQueryTime` keeps what the hash entry's memory held. -/
def createTenantStats (staleQueryTime : Int) : TenantStats :=
  ⟨0, 0, 0, 0, 0, 0, staleQueryTime, 0, 0⟩

/-- A query attributed to the tenant: its time, its command type and its CPU time. -/
structure AttributedQuery where
  queryTime : Int
  commandType : CmdType
  queryCpuTime : ℚ
  deriving DecidableEq, Repr

/-- `AttributeMetricsIfApplicable` for the tenant: its entry is created when missing, then
rolled over, decayed and charged with the query. -/
def attributeMetricsIfApplicable (statTenantsPeriod staleQueryTime : Int)
    (tenantStats : Option TenantStats) (query : AttributedQuery) : TenantStats :=
  let tenantStats := tenantStats.getD (createTenantStats staleQueryTime)
  let tenantStats := updatePeriodsIfNecessary statTenantsPeriod tenantStats query.queryTime
  let tenantStats := reduceScoreIfNecessary statTenantsPeriod tenantStats query.queryTime
  recordTenantStats tenantStats query.queryTime query.commandType query.queryCpuTime

/-- What `citus_stat_tenants_local` does to the tenant's entry before reporting it. -/
def citusStatTenantsLocal (statTenantsPeriod : Int) (tenantStats : TenantStats)
    (monitoringTime : Int) : TenantStats :=
  reduceScoreIfNecessary statTenantsPeriod
    (updatePeriodsIfNecessary statTenantsPeriod tenantStats monitoringTime) monitoringTime

/-- What touches the tenant's entry: a query attributed to it, or a read of the statistics. -/
inductive TenantEvent
  | query (attributedQuery : AttributedQuery)
  | read (monitoringTime : Int)
  deriving DecidableEq, Repr

/-- The time of an event. -/
def TenantEvent.time : TenantEvent → Int
  | .query attributedQuery => attributedQuery.queryTime
  | .read monitoringTime => monitoringTime

/-- One event on the tenant's entry, absent until its first query. -/
def tenantStep (statTenantsPeriod staleQueryTime : Int) (tenantStats : Option TenantStats) :
    TenantEvent → Option TenantStats
  | .query query => some (attributeMetricsIfApplicable statTenantsPeriod staleQueryTime tenantStats query)
  | .read monitoringTime =>
      tenantStats.map fun tenantStats => citusStatTenantsLocal statTenantsPeriod tenantStats monitoringTime

/-- The tenant's entry after a run of events. -/
def tenantRun (statTenantsPeriod staleQueryTime : Int) (events : List TenantEvent) :
    Option TenantStats :=
  events.foldl (tenantStep statTenantsPeriod staleQueryTime) none

/-! ## The period semantics -/

/-- The queries of a run, in order. -/
def queriesOf (events : List TenantEvent) : List AttributedQuery :=
  events.filterMap fun
    | .query attributedQuery => some attributedQuery
    | .read _ => none

/-- The period a time falls in: `⌊t / P⌋` for a period of `P` microseconds. -/
def periodOf (statTenantsPeriod time : Int) : Int :=
  time / (statTenantsPeriod * usecsPerSec)

/-- The total of a weight over the queries of a run made in a period. -/
def periodTotal {M : Type*} [AddMonoid M] (statTenantsPeriod : Int)
    (weight : AttributedQuery → M) (events : List TenantEvent) (period : Int) : M :=
  (((queriesOf events).filter fun attributedQuery =>
    periodOf statTenantsPeriod attributedQuery.queryTime = period).map weight).sum

/-- The slots the period semantics gives at a time: the totals of its period and of the one
before. -/
def periodWindow {M : Type*} [AddMonoid M] (statTenantsPeriod : Int)
    (weight : AttributedQuery → M) (events : List TenantEvent) (time : Int) : M × M :=
  (periodTotal statTenantsPeriod weight events (periodOf statTenantsPeriod time),
    periodTotal statTenantsPeriod weight events (periodOf statTenantsPeriod time - 1))

/-- A query counted as a read. -/
def readWeight (attributedQuery : AttributedQuery) : Nat :=
  if attributedQuery.commandType = .cmdSelect then 1 else 0

/-- A query counted as a write. -/
def writeWeight (attributedQuery : AttributedQuery) : Nat :=
  if attributedQuery.commandType = .cmdUpdate ∨ attributedQuery.commandType = .cmdInsert ∨
      attributedQuery.commandType = .cmdDelete then 1
  else 0

/-- A query's CPU time. -/
def cpuWeight (attributedQuery : AttributedQuery) : ℚ :=
  attributedQuery.queryCpuTime

/-- The read slots of an entry. -/
def TenantStats.readsWindow (tenantStats : TenantStats) : Nat × Nat :=
  (tenantStats.readsInThisPeriod, tenantStats.readsInLastPeriod)

/-- The write slots of an entry. -/
def TenantStats.writesWindow (tenantStats : TenantStats) : Nat × Nat :=
  (tenantStats.writesInThisPeriod, tenantStats.writesInLastPeriod)

/-- The CPU time slots of an entry. -/
def TenantStats.cpuWindow (tenantStats : TenantStats) : ℚ × ℚ :=
  (tenantStats.cpuUsageInThisPeriod, tenantStats.cpuUsageInLastPeriod)

/-- The runs the period semantics is claimed for here: events at non-negative,
non-decreasing times, and queries that are reads or writes, none at the very start of a
period. -/
structure PeriodRun (statTenantsPeriod : Int) (events : List TenantEvent) : Prop where
  sorted : (events.map TenantEvent.time).Pairwise (· ≤ ·)
  nonneg : ∀ event ∈ events, 0 ≤ event.time
  read_or_write : ∀ attributedQuery ∈ queriesOf events,
    readWeight attributedQuery + writeWeight attributedQuery = 1
  off_boundary : ∀ attributedQuery ∈ queriesOf events,
    attributedQuery.queryTime.tmod (statTenantsPeriod * usecsPerSec) ≠ 0

/-! ## One call at a time -/

/-- Whether `UpdatePeriodsIfNecessary` moves the current slots into the last ones. -/
def periodMoves (statTenantsPeriod : Int) (tenantStats : TenantStats) (queryTime : Int) : Bool :=
  decide (tenantStats.lastQueryTime < periodStart statTenantsPeriod queryTime ∧
    (tenantStats.writesInThisPeriod ≠ 0 ∨ tenantStats.readsInThisPeriod ≠ 0))

/-- Whether `UpdatePeriodsIfNecessary` empties the last slots. -/
def periodClears (statTenantsPeriod : Int) (tenantStats : TenantStats) (queryTime : Int) : Bool :=
  timestampDifferenceExceeds tenantStats.lastQueryTime (periodStart statTenantsPeriod queryTime)
    (statTenantsPeriod * 1000)

/-- `UpdatePeriodsIfNecessary` rolls the three pairs of slots over alike. -/
theorem updatePeriodsIfNecessary_windows (statTenantsPeriod : Int) (tenantStats : TenantStats)
    (queryTime : Int) :
    let moves := periodMoves statTenantsPeriod tenantStats queryTime
    let clears := periodClears statTenantsPeriod tenantStats queryTime
    let updated := updatePeriodsIfNecessary statTenantsPeriod tenantStats queryTime
    updated.readsWindow = rollover tenantStats.readsWindow moves clears ∧
      updated.writesWindow = rollover tenantStats.writesWindow moves clears ∧
      updated.cpuWindow = rollover tenantStats.cpuWindow moves clears ∧
      updated.lastQueryTime = tenantStats.lastQueryTime := by
  simp only [updatePeriodsIfNecessary, periodMoves, periodClears]
  by_cases hmoves : tenantStats.lastQueryTime < periodStart statTenantsPeriod queryTime ∧
      (tenantStats.writesInThisPeriod ≠ 0 ∨ tenantStats.readsInThisPeriod ≠ 0) <;>
    by_cases hclears : timestampDifferenceExceeds tenantStats.lastQueryTime
      (periodStart statTenantsPeriod queryTime) (statTenantsPeriod * 1000) = true <;>
    simp [hmoves, hclears, rollover, TenantStats.readsWindow, TenantStats.writesWindow,
      TenantStats.cpuWindow]

/-- `ReduceScoreIfNecessary` touches only the score. -/
theorem reduceScoreIfNecessary_windows (statTenantsPeriod : Int) (tenantStats : TenantStats)
    (queryTime : Int) :
    let reduced := reduceScoreIfNecessary statTenantsPeriod tenantStats queryTime
    reduced.readsWindow = tenantStats.readsWindow ∧
      reduced.writesWindow = tenantStats.writesWindow ∧
      reduced.cpuWindow = tenantStats.cpuWindow ∧
      reduced.lastQueryTime = tenantStats.lastQueryTime := by
  simp only [reduceScoreIfNecessary]
  split_ifs <;> exact ⟨rfl, rfl, rfl, rfl⟩

/-- `RecordTenantStats` charges the query to the current slots. -/
theorem recordTenantStats_windows (tenantStats : TenantStats) (attributedQuery : AttributedQuery) :
    let recorded := recordTenantStats tenantStats attributedQuery.queryTime
      attributedQuery.commandType attributedQuery.queryCpuTime
    recorded.readsWindow = (tenantStats.readsInThisPeriod + readWeight attributedQuery,
        tenantStats.readsInLastPeriod) ∧
      recorded.writesWindow = (tenantStats.writesInThisPeriod + writeWeight attributedQuery,
        tenantStats.writesInLastPeriod) ∧
      recorded.cpuWindow = (tenantStats.cpuUsageInThisPeriod + cpuWeight attributedQuery,
        tenantStats.cpuUsageInLastPeriod) ∧
      recorded.lastQueryTime = attributedQuery.queryTime := by
  obtain ⟨queryTime, commandType, queryCpuTime⟩ := attributedQuery
  cases commandType <;>
    simp [recordTenantStats, readWeight, writeWeight, cpuWeight, TenantStats.readsWindow,
      TenantStats.writesWindow, TenantStats.cpuWindow]

/-! ## Periods of non-negative times -/

/-- A non-negative time's period starts at the multiple of the period length below it. -/
theorem periodStart_eq {statTenantsPeriod queryTime : Int} (htime : 0 ≤ queryTime) :
    periodStart statTenantsPeriod queryTime =
      periodOf statTenantsPeriod queryTime * (statTenantsPeriod * usecsPerSec) := by
  unfold periodStart periodOf
  rw [Int.tmod_eq_emod_of_nonneg htime, Int.emod_def]
  ring

section Periods

variable {statTenantsPeriod : Int} (hperiod : 0 < statTenantsPeriod)
include hperiod

theorem periodLength_pos : 0 < statTenantsPeriod * usecsPerSec := by
  unfold usecsPerSec
  omega

theorem lt_periodStart_iff {time queryTime : Int} (htime : 0 ≤ queryTime) :
    time < periodStart statTenantsPeriod queryTime ↔
      periodOf statTenantsPeriod time < periodOf statTenantsPeriod queryTime := by
  rw [periodStart_eq htime]
  unfold periodOf
  rw [Int.ediv_lt_iff_lt_mul (periodLength_pos hperiod)]

theorem periodOf_eq_of_bounds {time : Int} (period : Int)
    (hlow : period * (statTenantsPeriod * usecsPerSec) ≤ time)
    (hhigh : time < (period + 1) * (statTenantsPeriod * usecsPerSec)) :
    periodOf statTenantsPeriod time = period := by
  have hlength := periodLength_pos hperiod
  have hge : period ≤ periodOf statTenantsPeriod time := (Int.le_ediv_iff_mul_le hlength).mpr hlow
  have hlt : periodOf statTenantsPeriod time < period + 1 :=
    (Int.ediv_lt_iff_lt_mul hlength).mpr hhigh
  omega

theorem periodOf_le_periodOf {time time' : Int} (hle : time ≤ time') :
    periodOf statTenantsPeriod time ≤ periodOf statTenantsPeriod time' :=
  Int.ediv_le_ediv (periodLength_pos hperiod) hle

/-- The last slots are emptied exactly when two or more periods started since the last
query, when that query was not at the very start of a period. -/
theorem periodClears_iff {tenantStats : TenantStats} {queryTime : Int} (htime : 0 ≤ queryTime)
    (hlast : 0 ≤ tenantStats.lastQueryTime)
    (hoff : tenantStats.lastQueryTime.tmod (statTenantsPeriod * usecsPerSec) ≠ 0) :
    periodClears statTenantsPeriod tenantStats queryTime = true ↔
      periodOf statTenantsPeriod tenantStats.lastQueryTime + 2 ≤
        periodOf statTenantsPeriod queryTime := by
  have hlength := periodLength_pos hperiod
  have hmsec : statTenantsPeriod * 1000 * 1000 = statTenantsPeriod * usecsPerSec := by
    rw [usecsPerSec]
    ring
  unfold periodClears timestampDifferenceExceeds
  rw [periodStart_eq htime, decide_eq_true_iff, hmsec]
  unfold periodOf
  -- the last query is `length * a + r` with a remainder strictly inside the period
  have hdecomp := Int.mul_ediv_add_emod tenantStats.lastQueryTime (statTenantsPeriod * usecsPerSec)
  have hrem : tenantStats.lastQueryTime % (statTenantsPeriod * usecsPerSec) ≠ 0 := by
    rwa [← Int.tmod_eq_emod_of_nonneg hlast]
  have hremLt := Int.emod_lt_of_pos tenantStats.lastQueryTime hlength
  have hremPos : 0 < tenantStats.lastQueryTime % (statTenantsPeriod * usecsPerSec) :=
    lt_of_le_of_ne (Int.emod_nonneg _ hlength.ne') hrem.symm
  constructor
  · intro hexceeds
    by_contra hclose
    have hle : queryTime / (statTenantsPeriod * usecsPerSec) ≤
        tenantStats.lastQueryTime / (statTenantsPeriod * usecsPerSec) + 1 := by omega
    have := Int.mul_le_mul_of_nonneg_right hle hlength.le
    linarith
  · intro hfar
    have := Int.mul_le_mul_of_nonneg_right hfar hlength.le
    linarith

end Periods

/-! ## Histories -/

@[simp]
theorem queriesOf_append_query (events : List TenantEvent) (attributedQuery : AttributedQuery) :
    queriesOf (events ++ [.query attributedQuery]) = queriesOf events ++ [attributedQuery] := by
  simp [queriesOf]

@[simp]
theorem queriesOf_append_read (events : List TenantEvent) (monitoringTime : Int) :
    queriesOf (events ++ [.read monitoringTime]) = queriesOf events := by
  simp [queriesOf]

section Totals

variable {M : Type*} [AddMonoid M] {statTenantsPeriod : Int} (weight : AttributedQuery → M)

theorem periodTotal_append_query (events : List TenantEvent) (attributedQuery : AttributedQuery)
    (period : Int) :
    periodTotal statTenantsPeriod weight (events ++ [.query attributedQuery]) period =
      periodTotal statTenantsPeriod weight events period +
        if periodOf statTenantsPeriod attributedQuery.queryTime = period then weight attributedQuery
        else 0 := by
  unfold periodTotal
  rw [queriesOf_append_query, List.filter_append, List.map_append, List.sum_append]
  split_ifs with hperiod <;> simp [hperiod]

theorem periodTotal_append_read (events : List TenantEvent) (monitoringTime period : Int) :
    periodTotal statTenantsPeriod weight (events ++ [.read monitoringTime]) period =
      periodTotal statTenantsPeriod weight events period := by
  simp only [periodTotal, queriesOf_append_read]

/-- A period in which no query of the run was made has nothing in it. -/
theorem periodTotal_eq_zero {events : List TenantEvent} {period : Int}
    (hnone : ∀ attributedQuery ∈ queriesOf events,
      periodOf statTenantsPeriod attributedQuery.queryTime ≠ period) :
    periodTotal statTenantsPeriod weight events period = 0 := by
  unfold periodTotal
  rw [List.filter_eq_nil_iff.mpr (fun attributedQuery hmem => by simpa using hnone _ hmem)]
  rfl

end Totals

/-- A period in which a read or a write was made has a read or a write in it. -/
theorem periodTotal_reads_or_writes_ne_zero {statTenantsPeriod : Int} {events : List TenantEvent}
    {attributedQuery : AttributedQuery} (hmem : attributedQuery ∈ queriesOf events)
    (hcounted : readWeight attributedQuery + writeWeight attributedQuery = 1) :
    periodTotal statTenantsPeriod writeWeight events
        (periodOf statTenantsPeriod attributedQuery.queryTime) ≠ 0 ∨
      periodTotal statTenantsPeriod readWeight events
        (periodOf statTenantsPeriod attributedQuery.queryTime) ≠ 0 := by
  have hfiltered : attributedQuery ∈ (queriesOf events).filter fun other =>
      periodOf statTenantsPeriod other.queryTime = periodOf statTenantsPeriod attributedQuery.queryTime :=
    List.mem_filter.mpr ⟨hmem, by simp⟩
  have hwrite := List.le_sum_of_mem (@List.mem_map_of_mem _ _ _ _ writeWeight hfiltered)
  have hread := List.le_sum_of_mem (@List.mem_map_of_mem _ _ _ _ readWeight hfiltered)
  unfold periodTotal
  omega

section Windows

variable {M : Type*} [AddMonoid M] {statTenantsPeriod : Int} (weight : AttributedQuery → M)

/-- A query adds its weight to the current slot of its own time's window. -/
theorem periodWindow_append_query (events : List TenantEvent) (attributedQuery : AttributedQuery) :
    periodWindow statTenantsPeriod weight (events ++ [.query attributedQuery])
        attributedQuery.queryTime =
      ((periodWindow statTenantsPeriod weight events attributedQuery.queryTime).1 +
          weight attributedQuery,
        (periodWindow statTenantsPeriod weight events attributedQuery.queryTime).2) := by
  unfold periodWindow
  rw [periodTotal_append_query, periodTotal_append_query, if_pos rfl, if_neg (by omega),
    add_zero]

theorem periodWindow_append_read (events : List TenantEvent) (monitoringTime time : Int) :
    periodWindow statTenantsPeriod weight (events ++ [.read monitoringTime]) time =
      periodWindow statTenantsPeriod weight events time := by
  simp only [periodWindow, periodTotal_append_read]

end Windows

/-! ## Runs -/

/-- In a list sorted by `≤`, every element is at most the last. -/
theorem le_of_getLast? {times : List Int} (hsorted : times.Pairwise (· ≤ ·)) {last : Int}
    (hlast : times.getLast? = some last) : ∀ time ∈ times, time ≤ last := by
  obtain ⟨front, rfl⟩ := List.getLast?_eq_some_iff.mp hlast
  intro time hmem
  rcases List.mem_append.mp hmem with hfront | hlastMem
  · exact (List.pairwise_append.mp hsorted).2.2 time hfront last (List.mem_singleton_self last)
  · rw [List.mem_singleton.mp hlastMem]

theorem queriesOf_times_sublist (events : List TenantEvent) :
    ((queriesOf events).map AttributedQuery.queryTime).Sublist (events.map TenantEvent.time) := by
  induction events with
  | nil => exact List.Sublist.slnil
  | cons event rest ih =>
      cases event with
      | query attributedQuery =>
          simpa [queriesOf, TenantEvent.time] using ih.cons_cons attributedQuery.queryTime
      | read monitoringTime => simpa [queriesOf, TenantEvent.time] using ih.cons monitoringTime

theorem mem_of_mem_queriesOf {events : List TenantEvent} {attributedQuery : AttributedQuery}
    (hmem : attributedQuery ∈ queriesOf events) : TenantEvent.query attributedQuery ∈ events := by
  obtain ⟨event, hevent, hquery⟩ := List.mem_filterMap.mp hmem
  cases event with
  | query other =>
      cases hquery
      exact hevent
  | read _ => cases hquery

theorem PeriodRun.of_append {statTenantsPeriod : Int} {events : List TenantEvent}
    {event : TenantEvent} (hrun : PeriodRun statTenantsPeriod (events ++ [event])) :
    PeriodRun statTenantsPeriod events where
  sorted := by
    have := hrun.sorted
    rw [List.map_append, List.pairwise_append] at this
    exact this.1
  nonneg event hmem := hrun.nonneg event (List.mem_append_left _ hmem)
  read_or_write attributedQuery hmem :=
    hrun.read_or_write attributedQuery (by simp [queriesOf, List.filterMap_append] at hmem ⊢; exact Or.inl hmem)
  off_boundary attributedQuery hmem :=
    hrun.off_boundary attributedQuery (by simp [queriesOf, List.filterMap_append] at hmem ⊢; exact Or.inl hmem)

/-- What the tenant's entry holds after a run, by the period semantics: no entry before the
first query; after it, the time of the last query, and at the time of the last event the
totals of its period and of the one before. -/
def PeriodsHold (statTenantsPeriod : Int) (events : List TenantEvent) :
    Option TenantStats → Prop
  | none => queriesOf events = []
  | some tenantStats =>
      (queriesOf events).getLast?.map AttributedQuery.queryTime = some tenantStats.lastQueryTime ∧
      ∀ lastEvent ∈ events.getLast?,
        tenantStats.readsWindow = periodWindow statTenantsPeriod readWeight events lastEvent.time ∧
        tenantStats.writesWindow = periodWindow statTenantsPeriod writeWeight events lastEvent.time ∧
        tenantStats.cpuWindow = periodWindow statTenantsPeriod cpuWeight events lastEvent.time

section Step

variable {statTenantsPeriod : Int} (hperiod : 0 < statTenantsPeriod)
include hperiod

/-- The rollover at the time of a new event turns the slots of the last event's period into
those of the new event's period. -/
theorem updatePeriodsIfNecessary_periodWindow {events : List TenantEvent} {event : TenantEvent}
    (hrun : PeriodRun statTenantsPeriod (events ++ [event])) {tenantStats : TenantStats}
    (hhold : PeriodsHold statTenantsPeriod events (some tenantStats)) :
    let updated := updatePeriodsIfNecessary statTenantsPeriod tenantStats event.time
    updated.readsWindow = periodWindow statTenantsPeriod readWeight events event.time ∧
      updated.writesWindow = periodWindow statTenantsPeriod writeWeight events event.time ∧
      updated.cpuWindow = periodWindow statTenantsPeriod cpuWeight events event.time ∧
      updated.lastQueryTime = tenantStats.lastQueryTime := by
  obtain ⟨hlastQuery, hwindows⟩ := hhold
  obtain ⟨lastQuery, hlastQueryEq, htimeEq⟩ := Option.map_eq_some_iff.mp hlastQuery
  have hqueryMem : lastQuery ∈ queriesOf events := List.mem_of_getLast? hlastQueryEq
  obtain ⟨lastEvent, hlastEvent⟩ : ∃ lastEvent, events.getLast? = some lastEvent := by
    cases hget : events.getLast? with
    | none =>
        exact absurd (List.getLast?_eq_none_iff.mp hget) (List.ne_nil_of_mem (mem_of_mem_queriesOf hqueryMem))
    | some lastEvent => exact ⟨lastEvent, rfl⟩
  obtain ⟨hreads, hwrites, hcpu⟩ := hwindows lastEvent hlastEvent
  -- the order of the times: the last query, the last event, the new event
  have hsorted := hrun.sorted
  rw [List.map_append, List.pairwise_append] at hsorted
  have hbeforeEvent : ∀ earlier ∈ events, earlier.time ≤ event.time := fun earlier hmem =>
    hsorted.2.2 _ (List.mem_map_of_mem hmem) _ (List.mem_singleton_self _)
  have hbeforeLast : ∀ earlier ∈ events, earlier.time ≤ lastEvent.time := fun earlier hmem =>
    le_of_getLast? hsorted.1 (by rw [List.getLast?_map, hlastEvent]; rfl) _
      (List.mem_map_of_mem hmem)
  have hbeforeQuery : ∀ attributedQuery ∈ queriesOf events,
      attributedQuery.queryTime ≤ tenantStats.lastQueryTime := fun attributedQuery hmem =>
    htimeEq ▸ le_of_getLast? (hsorted.1.sublist (queriesOf_times_sublist events))
      (by rw [List.getLast?_map, hlastQueryEq]; rfl) _ (List.mem_map_of_mem hmem)
  have hlastNonneg : 0 ≤ tenantStats.lastQueryTime :=
    htimeEq ▸ hrun.nonneg _ (List.mem_append_left _ (mem_of_mem_queriesOf hqueryMem))
  have heventNonneg : 0 ≤ event.time := hrun.nonneg event (by simp)
  have hoff : tenantStats.lastQueryTime.tmod (statTenantsPeriod * usecsPerSec) ≠ 0 :=
    htimeEq ▸ hrun.off_boundary lastQuery (by simp [queriesOf, List.filterMap_append] at hqueryMem ⊢; exact Or.inl hqueryMem)
  -- the periods of the last query, of the last event and of the new event
  have hp0 : periodOf statTenantsPeriod tenantStats.lastQueryTime ≤
      periodOf statTenantsPeriod lastEvent.time :=
    periodOf_le_periodOf hperiod
      (htimeEq ▸ hbeforeLast _ (mem_of_mem_queriesOf hqueryMem))
  have hp1 : periodOf statTenantsPeriod lastEvent.time ≤ periodOf statTenantsPeriod event.time :=
    periodOf_le_periodOf hperiod (hbeforeEvent lastEvent (List.mem_of_getLast? hlastEvent))
  have hafter : ∀ {M : Type} [AddMonoid M] (weight : AttributedQuery → M) (period : Int),
      periodOf statTenantsPeriod tenantStats.lastQueryTime < period →
        periodTotal statTenantsPeriod weight events period = 0 := by
    intro M _ weight period hlater
    apply periodTotal_eq_zero
    intro attributedQuery hmem hperiodEq
    have := periodOf_le_periodOf hperiod (hbeforeQuery attributedQuery hmem)
    omega
  have hmoves : periodMoves statTenantsPeriod tenantStats event.time = true ↔
      periodOf statTenantsPeriod tenantStats.lastQueryTime < periodOf statTenantsPeriod event.time ∧
        periodOf statTenantsPeriod lastEvent.time =
          periodOf statTenantsPeriod tenantStats.lastQueryTime := by
    have hwritesThis := congrArg Prod.fst hwrites
    have hreadsThis := congrArg Prod.fst hreads
    simp only [TenantStats.writesWindow, TenantStats.readsWindow, periodWindow] at hwritesThis hreadsThis
    unfold periodMoves
    rw [decide_eq_true_iff, lt_periodStart_iff hperiod heventNonneg, hwritesThis, hreadsThis]
    constructor
    · rintro ⟨hstarted, hcounted⟩
      refine ⟨hstarted, ?_⟩
      -- a slot still holding a read or a write holds the last query's period
      by_contra hne
      rw [hafter writeWeight _ (by omega), hafter readWeight _ (by omega)] at hcounted
      simp at hcounted
    · rintro ⟨hstarted, hsame⟩
      refine ⟨hstarted, ?_⟩
      rw [hsame, ← htimeEq]
      exact periodTotal_reads_or_writes_ne_zero hqueryMem (hrun.read_or_write lastQuery
        (by simp [queriesOf, List.filterMap_append] at hqueryMem ⊢; exact Or.inl hqueryMem))
  have hclears := periodClears_iff hperiod heventNonneg hlastNonneg hoff
  obtain ⟨hreadsRolled, hwritesRolled, hcpuRolled, hlastQueryTime⟩ :=
    updatePeriodsIfNecessary_windows statTenantsPeriod tenantStats event.time
  refine ⟨?_, ?_, ?_, hlastQueryTime⟩
  · rw [hreadsRolled, hreads]
    exact rollover_window _ hp0 hp1 (hafter readWeight) hmoves hclears
  · rw [hwritesRolled, hwrites]
    exact rollover_window _ hp0 hp1 (hafter writeWeight) hmoves hclears
  · rw [hcpuRolled, hcpu]
    exact rollover_window _ hp0 hp1 (hafter cpuWeight) hmoves hclears

end Step

/-- Charging a query to an entry that holds the slots of the query's time gives the entry of
the run with the query. -/
theorem periodsHold_recordTenantStats {statTenantsPeriod : Int} {events : List TenantEvent}
    {tenantStats : TenantStats} {attributedQuery : AttributedQuery}
    (hreads : tenantStats.readsWindow =
      periodWindow statTenantsPeriod readWeight events attributedQuery.queryTime)
    (hwrites : tenantStats.writesWindow =
      periodWindow statTenantsPeriod writeWeight events attributedQuery.queryTime)
    (hcpu : tenantStats.cpuWindow =
      periodWindow statTenantsPeriod cpuWeight events attributedQuery.queryTime) :
    PeriodsHold statTenantsPeriod (events ++ [.query attributedQuery])
      (some (recordTenantStats tenantStats attributedQuery.queryTime attributedQuery.commandType
        attributedQuery.queryCpuTime)) := by
  obtain ⟨hreadsRecorded, hwritesRecorded, hcpuRecorded, hlastQueryTime⟩ :=
    recordTenantStats_windows tenantStats attributedQuery
  refine ⟨by simp [hlastQueryTime], ?_⟩
  intro lastEvent hlastEvent
  obtain rfl : TenantEvent.query attributedQuery = lastEvent := by simpa using hlastEvent
  simp only [TenantEvent.time, periodWindow_append_query]
  refine ⟨?_, ?_, ?_⟩
  · rw [hreadsRecorded, ← hreads]
    rfl
  · rw [hwritesRecorded, ← hwrites]
    rfl
  · rw [hcpuRecorded, ← hcpu]
    rfl

/-- One event keeps the entry to the period semantics. -/
theorem periodsHold_step {statTenantsPeriod : Int} (hperiod : 0 < statTenantsPeriod)
    (staleQueryTime : Int) {events : List TenantEvent} {event : TenantEvent}
    (hrun : PeriodRun statTenantsPeriod (events ++ [event])) {tenantStats : Option TenantStats}
    (hhold : PeriodsHold statTenantsPeriod events tenantStats) :
    PeriodsHold statTenantsPeriod (events ++ [event])
      (tenantStep statTenantsPeriod staleQueryTime tenantStats event) := by
  cases tenantStats with
  | none =>
      cases event with
      | query attributedQuery =>
          -- the first query: the entry is created, and its slots are still empty
          have hempty : ∀ {M : Type} [AddMonoid M] (weight : AttributedQuery → M),
              periodWindow statTenantsPeriod weight events attributedQuery.queryTime = (0, 0) := by
            intro M _ weight
            unfold periodWindow
            rw [periodTotal_eq_zero weight (by simp [show queriesOf events = [] from hhold]),
              periodTotal_eq_zero weight (by simp [show queriesOf events = [] from hhold])]
          obtain ⟨hreads, hwrites, hcpu, -⟩ := updatePeriodsIfNecessary_windows statTenantsPeriod
            (createTenantStats staleQueryTime) attributedQuery.queryTime
          obtain ⟨hreads', hwrites', hcpu', -⟩ := reduceScoreIfNecessary_windows statTenantsPeriod
            (updatePeriodsIfNecessary statTenantsPeriod (createTenantStats staleQueryTime)
              attributedQuery.queryTime) attributedQuery.queryTime
          apply periodsHold_recordTenantStats <;> rw [Option.getD_none]
          · rw [hreads', hreads, hempty]
            exact rollover_zero _ _
          · rw [hwrites', hwrites, hempty]
            exact rollover_zero _ _
          · rw [hcpu', hcpu, hempty]
            exact rollover_zero _ _
      | read monitoringTime =>
          show queriesOf (events ++ [.read monitoringTime]) = []
          rw [queriesOf_append_read]
          exact hhold
  | some tenantStats =>
      obtain ⟨hreads, hwrites, hcpu, hlastQueryTime⟩ :=
        updatePeriodsIfNecessary_periodWindow hperiod hrun hhold
      obtain ⟨hreads', hwrites', hcpu', hlastQueryTime'⟩ := reduceScoreIfNecessary_windows
        statTenantsPeriod (updatePeriodsIfNecessary statTenantsPeriod tenantStats event.time)
        event.time
      cases event with
      | query attributedQuery =>
          apply periodsHold_recordTenantStats
          · exact hreads'.trans hreads
          · exact hwrites'.trans hwrites
          · exact hcpu'.trans hcpu
      | read monitoringTime =>
          refine ⟨?_, ?_⟩
          · rw [queriesOf_append_read]
            exact hhold.1.trans (congrArg some (hlastQueryTime'.trans hlastQueryTime).symm)
          · intro lastEvent hlastEvent
            obtain rfl : TenantEvent.read monitoringTime = lastEvent := by simpa using hlastEvent
            simp only [citusStatTenantsLocal, periodWindow_append_read]
            exact ⟨hreads'.trans hreads, hwrites'.trans hwrites, hcpu'.trans hcpu⟩

/-- Every run keeps the entry to the period semantics. -/
theorem periodsHold_tenantRun {statTenantsPeriod : Int} (hperiod : 0 < statTenantsPeriod)
    (staleQueryTime : Int) :
    ∀ events : List TenantEvent, PeriodRun statTenantsPeriod events →
      PeriodsHold statTenantsPeriod events (tenantRun statTenantsPeriod staleQueryTime events) := by
  intro events
  induction events using List.reverseRecOn with
  | nil =>
      intro _
      rfl
  | append_singleton events event ih =>
      intro hrun
      rw [tenantRun, List.foldl_append, List.foldl_cons, List.foldl_nil]
      exact periodsHold_step hperiod staleQueryTime hrun (ih hrun.of_append)

/-- `AttributeMetricsIfApplicable` charges the query to the slots as the rollover left them. -/
theorem attributeMetricsIfApplicable_windows (statTenantsPeriod staleQueryTime : Int)
    (tenantStats : Option TenantStats) (attributedQuery : AttributedQuery) :
    let entry := tenantStats.getD (createTenantStats staleQueryTime)
    let moves := periodMoves statTenantsPeriod entry attributedQuery.queryTime
    let clears := periodClears statTenantsPeriod entry attributedQuery.queryTime
    let attributed := attributeMetricsIfApplicable statTenantsPeriod staleQueryTime tenantStats
      attributedQuery
    attributed.readsWindow = ((rollover entry.readsWindow moves clears).1 +
        readWeight attributedQuery, (rollover entry.readsWindow moves clears).2) ∧
      attributed.writesWindow = ((rollover entry.writesWindow moves clears).1 +
        writeWeight attributedQuery, (rollover entry.writesWindow moves clears).2) ∧
      attributed.cpuWindow = ((rollover entry.cpuWindow moves clears).1 +
        cpuWeight attributedQuery, (rollover entry.cpuWindow moves clears).2) ∧
      attributed.lastQueryTime = attributedQuery.queryTime := by
  dsimp only [attributeMetricsIfApplicable]
  set entry := tenantStats.getD (createTenantStats staleQueryTime)
  obtain ⟨hreads, hwrites, hcpu, -⟩ :=
    updatePeriodsIfNecessary_windows statTenantsPeriod entry attributedQuery.queryTime
  obtain ⟨hreads', hwrites', hcpu', -⟩ := reduceScoreIfNecessary_windows statTenantsPeriod
    (updatePeriodsIfNecessary statTenantsPeriod entry attributedQuery.queryTime)
    attributedQuery.queryTime
  obtain ⟨hreadsRecorded, hwritesRecorded, hcpuRecorded, hlastQueryTime⟩ :=
    recordTenantStats_windows (reduceScoreIfNecessary statTenantsPeriod
      (updatePeriodsIfNecessary statTenantsPeriod entry attributedQuery.queryTime)
      attributedQuery.queryTime) attributedQuery
  refine ⟨?_, ?_, ?_, hlastQueryTime⟩
  · rw [hreadsRecorded, ← hreads, ← hreads']
    rfl
  · rw [hwritesRecorded, ← hwrites, ← hwrites']
    rfl
  · rw [hcpuRecorded, ← hcpu, ← hcpu']
    rfl

/-- Two runs of two queries, the second one period after the first: a `SELECT` at the very
start of a period is emptied with that period instead of being reported as the last period's
(the period semantics has one read there), and the CPU time of a `MERGE` is never moved to the
last period (the period semantics has it there). -/
theorem tenantRun_boundary_and_other_commands {statTenantsPeriod : Int}
    (hperiod : 0 < statTenantsPeriod) (staleQueryTime : Int) {period : Int} (hperiodNonneg : 0 ≤ period)
    {firstTime secondTime : Int}
    (hfirst : period * (statTenantsPeriod * usecsPerSec) ≤ firstTime ∧
      firstTime < (period + 1) * (statTenantsPeriod * usecsPerSec))
    (hsecond : (period + 1) * (statTenantsPeriod * usecsPerSec) ≤ secondTime ∧
      secondTime < (period + 1 + 1) * (statTenantsPeriod * usecsPerSec))
    (firstCpuTime secondCpuTime : ℚ) :
    (tenantRun statTenantsPeriod staleQueryTime
        [.query ⟨period * (statTenantsPeriod * usecsPerSec), .cmdSelect, firstCpuTime⟩,
          .query ⟨secondTime, .cmdSelect, secondCpuTime⟩]).map TenantStats.readsWindow =
        some (1, 0) ∧
      periodWindow statTenantsPeriod readWeight
        [.query ⟨period * (statTenantsPeriod * usecsPerSec), .cmdSelect, firstCpuTime⟩,
          .query ⟨secondTime, .cmdSelect, secondCpuTime⟩] secondTime = (1, 1) ∧
      (tenantRun statTenantsPeriod staleQueryTime
        [.query ⟨firstTime, .cmdMerge, firstCpuTime⟩,
          .query ⟨secondTime, .cmdSelect, secondCpuTime⟩]).map TenantStats.cpuWindow =
        some (firstCpuTime + secondCpuTime, 0) ∧
      periodWindow statTenantsPeriod cpuWeight
        [.query ⟨firstTime, .cmdMerge, firstCpuTime⟩,
          .query ⟨secondTime, .cmdSelect, secondCpuTime⟩] secondTime =
        (secondCpuTime, firstCpuTime) := by
  have hlength := periodLength_pos hperiod
  have hstartNonneg : 0 ≤ period * (statTenantsPeriod * usecsPerSec) :=
    Int.mul_nonneg hperiodNonneg hlength.le
  have hsecondNonneg : 0 ≤ secondTime := by linarith [hsecond.1]
  have hstartPeriod : periodOf statTenantsPeriod (period * (statTenantsPeriod * usecsPerSec)) =
      period :=
    periodOf_eq_of_bounds hperiod period le_rfl (by linarith)
  have hfirstPeriod : periodOf statTenantsPeriod firstTime = period :=
    periodOf_eq_of_bounds hperiod period hfirst.1 hfirst.2
  have hsecondPeriod : periodOf statTenantsPeriod secondTime = period + 1 :=
    periodOf_eq_of_bounds hperiod (period + 1) hsecond.1 hsecond.2
  have hsecondStart : periodStart statTenantsPeriod secondTime =
      (period + 1) * (statTenantsPeriod * usecsPerSec) := by
    rw [periodStart_eq hsecondNonneg, hsecondPeriod]
  refine ⟨?boundary, ?boundarySemantics, ?merge, ?mergeSemantics⟩
  case boundary =>
    -- the first query leaves one read in the current slot, at the very start of its period
    obtain ⟨hreads, hwrites, -, hlastQueryTime⟩ := attributeMetricsIfApplicable_windows
      statTenantsPeriod staleQueryTime none
      ⟨period * (statTenantsPeriod * usecsPerSec), .cmdSelect, firstCpuTime⟩
    set first := attributeMetricsIfApplicable statTenantsPeriod staleQueryTime none
      ⟨period * (statTenantsPeriod * usecsPerSec), .cmdSelect, firstCpuTime⟩
    have hreadsFirst : first.readsInThisPeriod = 1 := by
      simpa [TenantStats.readsWindow, createTenantStats, readWeight] using congrArg Prod.fst hreads
    -- the second query moves it to the last slot and empties that slot at once
    have hmoves : periodMoves statTenantsPeriod first secondTime = true := by
      unfold periodMoves
      rw [decide_eq_true_iff, lt_periodStart_iff hperiod hsecondNonneg, hlastQueryTime,
        hstartPeriod, hsecondPeriod, hreadsFirst]
      exact ⟨by omega, Or.inr one_ne_zero⟩
    have hclears : periodClears statTenantsPeriod first secondTime = true := by
      unfold periodClears timestampDifferenceExceeds
      rw [decide_eq_true_iff, hsecondStart, hlastQueryTime, usecsPerSec]
      simp only at hlength ⊢
      linarith
    obtain ⟨hreadsSecond, -, -, -⟩ := attributeMetricsIfApplicable_windows statTenantsPeriod
      staleQueryTime (some first) ⟨secondTime, .cmdSelect, secondCpuTime⟩
    show some (attributeMetricsIfApplicable statTenantsPeriod staleQueryTime (some first)
      ⟨secondTime, .cmdSelect, secondCpuTime⟩).readsWindow = some (1, 0)
    rw [hreadsSecond]
    simp [Option.getD_some, hmoves, hclears, rollover, readWeight]
  case boundarySemantics =>
    simp [periodWindow, periodTotal, queriesOf, hstartPeriod, hsecondPeriod, readWeight]
  case merge =>
    -- a `MERGE` is neither a read nor a write, so the rollover does not move its CPU time
    obtain ⟨hreads, hwrites, hcpu, -⟩ := attributeMetricsIfApplicable_windows statTenantsPeriod
      staleQueryTime none ⟨firstTime, .cmdMerge, firstCpuTime⟩
    set first := attributeMetricsIfApplicable statTenantsPeriod staleQueryTime none
      ⟨firstTime, .cmdMerge, firstCpuTime⟩
    have hmoves : periodMoves statTenantsPeriod first secondTime = false := by
      have hreadsFirst : first.readsInThisPeriod = 0 := by
        simpa [TenantStats.readsWindow, createTenantStats, readWeight] using
          congrArg Prod.fst hreads
      have hwritesFirst : first.writesInThisPeriod = 0 := by
        simpa [TenantStats.writesWindow, createTenantStats, writeWeight] using
          congrArg Prod.fst hwrites
      simp [periodMoves, hreadsFirst, hwritesFirst]
    have hcpuFirst : first.cpuWindow = (firstCpuTime, 0) := by
      simpa [TenantStats.cpuWindow, createTenantStats, cpuWeight] using hcpu
    obtain ⟨-, -, hcpuSecond, -⟩ := attributeMetricsIfApplicable_windows statTenantsPeriod
      staleQueryTime (some first) ⟨secondTime, .cmdSelect, secondCpuTime⟩
    show some (attributeMetricsIfApplicable statTenantsPeriod staleQueryTime (some first)
      ⟨secondTime, .cmdSelect, secondCpuTime⟩).cpuWindow = some (firstCpuTime + secondCpuTime, 0)
    rw [hcpuSecond, Option.getD_some, hcpuFirst, hmoves]
    cases periodClears statTenantsPeriod first secondTime <;> rfl
  case mergeSemantics =>
    simp [periodWindow, periodTotal, queriesOf, hfirstPeriod, hsecondPeriod, cpuWeight]

theorem tenantRun_boundary_and_other_commands_minute :
    (0 : Int) < 60 ∧ (0 : Int) ≤ 1 ∧
      ((1 : Int) * (60 * usecsPerSec) ≤ 90000000 ∧ (90000000 : Int) < (1 + 1) * (60 * usecsPerSec)) ∧
      ((1 + 1 : Int) * (60 * usecsPerSec) ≤ 130000000 ∧
        (130000000 : Int) < (1 + 1 + 1) * (60 * usecsPerSec)) ∧
      (tenantRun 60 0 [.query ⟨1 * (60 * usecsPerSec), .cmdSelect, 1⟩,
          .query ⟨130000000, .cmdSelect, 2⟩]).map TenantStats.readsWindow = some (1, 0) ∧
      periodWindow 60 readWeight [.query ⟨1 * (60 * usecsPerSec), .cmdSelect, 1⟩,
          .query ⟨130000000, .cmdSelect, 2⟩] 130000000 = (1, 1) ∧
      (tenantRun 60 0 [.query ⟨90000000, .cmdMerge, 1⟩,
          .query ⟨130000000, .cmdSelect, 2⟩]).map TenantStats.cpuWindow = some (1 + 2, 0) ∧
      periodWindow 60 cpuWeight [.query ⟨90000000, .cmdMerge, 1⟩,
          .query ⟨130000000, .cmdSelect, 2⟩] 130000000 = (2, 1) :=
  ⟨by decide, by decide, ⟨by decide, by decide⟩, ⟨by decide, by decide⟩,
    tenantRun_boundary_and_other_commands (by decide) 0 (by decide) ⟨by decide, by decide⟩
      ⟨by decide, by decide⟩ 1 2⟩

end Citus.StatTenants
