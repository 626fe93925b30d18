import Mathlib

/-!
# Placement failover in the adaptive executor

A task on a replicated shard has one placement execution per placement
(`adaptive_executor.c`). A read may run on any placement (`EXECUTION_ORDER_ANY`), a
commutative write runs on each in turn (`EXECUTION_ORDER_SEQUENTIAL`), and other
writes run on all at once (`EXECUTION_ORDER_PARALLEL`). Outside the parallel order
only the first placement execution starts ready; the others wait in a pending
queue. When one finishes or fails, `PlacementExecutionDone` recomputes the task's
state (`TaskExecutionStateMachine`) and, while the task is unfinished, lets
`ScheduleNextPlacementExecution` make the next placement execution ready.

`ScheduleNextPlacementExecution` searches for that placement execution with a
`do`/`while` loop that skips failed ones, but each round computes the index as one
past the placement execution that finished, not past the one it just looked at. When
that next placement execution has already failed (its worker pool failed while it
was pending, which does not schedule anything) the loop looks at it forever
(`scheduleNextPlacementExecutionLoop_of_failed`).

## Implementation notes

The model keeps one task and the counters of the execution it updates. Worker pools
and sessions are not modelled: a placement execution records its pool's node, and
the failure of a pool or a session is `PlacementExecutionDone` with failure on each
placement execution of the task queued there. Queue moves, wait flags, timing
statistics and the local execution status are not modelled;
`CanFailoverPlacementExecutionToLocalExecution` is an input. The `do`/`while` loop
runs on fuel, and `none` stands for a loop that has not ended.
-/

namespace Citus.Executor

/-- `TaskPlacementExecutionState`. -/
inductive TaskPlacementExecutionState
  | notReady
  | ready
  | running
  | finished
  | failoverToLocalExecution
  | failed
  deriving DecidableEq, Repr

/-- `TaskExecutionState`. -/
inductive TaskExecutionState
  | notFinished
  | finished
  | failed
  | failoverToLocalExecution
  deriving DecidableEq, Repr

/-- `PlacementExecutionOrder`. -/
inductive PlacementExecutionOrder
  | any
  | sequential
  | parallel
  deriving DecidableEq, Repr

/-- The part of a `TaskPlacementExecution` failover reads: the node of its worker
pool and its state. -/
structure TaskPlacementExecution where
  nodeName : String
  nodePort : Nat
  executionState : TaskPlacementExecutionState
  deriving DecidableEq, Repr

instance : Inhabited TaskPlacementExecution := ⟨⟨"", 0, .notReady⟩⟩

/-- The part of a `ShardCommandExecution` failover reads and writes; the
placement executions are listed by `placementExecutionIndex`. -/
structure ShardCommandExecution where
  executionOrder : PlacementExecutionOrder
  placementExecutions : List TaskPlacementExecution
  executionState : TaskExecutionState
  deriving DecidableEq, Repr

/-- The fields of a `DistributedExecution` a task's end writes. -/
structure DistributedExecution where
  unfinishedTaskCount : Int
  failed : Bool
  /-- The task was moved to `localTaskList` and local execution became required. -/
  failedOverToLocal : Bool
  deriving DecidableEq, Repr

namespace ShardCommandExecution

/-- The state of the placement execution at an index. -/
def placementState (shardCommandExecution : ShardCommandExecution) (index : Nat) :
    TaskPlacementExecutionState :=
  (shardCommandExecution.placementExecutions.getD index default).executionState

/-- A write of the state of the placement execution at an index. -/
def setPlacementState (shardCommandExecution : ShardCommandExecution) (index : Nat)
    (state : TaskPlacementExecutionState) : ShardCommandExecution :=
  { shardCommandExecution with
    placementExecutions := shardCommandExecution.placementExecutions.modify index
      fun placementExecution => { placementExecution with executionState := state } }

variable {shardCommandExecution : ShardCommandExecution} {index : Nat}
  {state : TaskPlacementExecutionState}

@[simp] theorem setPlacementState_executionOrder :
    (shardCommandExecution.setPlacementState index state).executionOrder =
      shardCommandExecution.executionOrder := rfl

@[simp] theorem setPlacementState_executionState :
    (shardCommandExecution.setPlacementState index state).executionState =
      shardCommandExecution.executionState := rfl

@[simp] theorem length_setPlacementState :
    (shardCommandExecution.setPlacementState index state).placementExecutions.length =
      shardCommandExecution.placementExecutions.length := by
  simp [setPlacementState]

theorem placementState_setPlacementState_self
    (hindex : index < shardCommandExecution.placementExecutions.length) :
    (shardCommandExecution.setPlacementState index state).placementState index = state := by
  simp [setPlacementState, placementState, List.getD_eq_getElem?_getD, hindex]

theorem placementState_setPlacementState_of_ne {other : Nat} (hne : index ≠ other) :
    (shardCommandExecution.setPlacementState index state).placementState other =
      shardCommandExecution.placementState other := by
  simp [setPlacementState, placementState, List.getD_eq_getElem?_getD, hne]

end ShardCommandExecution

open ShardCommandExecution

/-- How many placement executions of the task are in a state. -/
def placementCountIn (shardCommandExecution : ShardCommandExecution)
    (state : TaskPlacementExecutionState) : Nat :=
  shardCommandExecution.placementExecutions.countP (·.executionState = state)

/-- `TaskExecutionStateMachine`: once the task has left `TASK_EXECUTION_NOT_FINISHED`
its state is kept; otherwise it is computed from the counts of finished, failed and
failed-over placement executions, and stored. -/
def taskExecutionStateMachine (shardCommandExecution : ShardCommandExecution) :
    ShardCommandExecution :=
  if shardCommandExecution.executionState ≠ .notFinished then shardCommandExecution
  else
    let executionOrder := shardCommandExecution.executionOrder
    let donePlacementCount := placementCountIn shardCommandExecution .finished
    let failedPlacementCount := placementCountIn shardCommandExecution .failed
    let failedOverPlacementCount :=
      placementCountIn shardCommandExecution .failoverToLocalExecution
    let placementCount := shardCommandExecution.placementExecutions.length
    let currentTaskExecutionState : TaskExecutionState :=
      if failedPlacementCount = placementCount then .failed
      else if executionOrder ≠ .any ∧ 0 < failedPlacementCount then .failed
      else if executionOrder = .any ∧ 0 < donePlacementCount then .finished
      else if donePlacementCount + failedPlacementCount = placementCount then .finished
      else if failedOverPlacementCount + donePlacementCount + failedPlacementCount =
          placementCount then .failoverToLocalExecution
      else .notFinished
    { shardCommandExecution with executionState := currentTaskExecutionState }

/-- `PlacementExecutionReady`, without the queue moves. -/
def placementExecutionReady (shardCommandExecution : ShardCommandExecution) (index : Nat) :
    ShardCommandExecution :=
  shardCommandExecution.setPlacementState index .ready

/-- The error `ScheduleNextPlacementExecution` raises after the last placement. -/
def cannotRecoverMessage (workerPool : TaskPlacementExecution) : String :=
  "execution cannot recover from multiple connection failures. Last node failed " ++
    workerPool.nodeName ++ ":" ++ toString workerPool.nodePort

/-- The `do`/`while` loop of `ScheduleNextPlacementExecution` for the placement
execution at `placementExecutionIndex`, on fuel. Every round looks at the index one
past `placementExecutionIndex`, makes it ready if it is not ready, and goes round
again while it is failed. -/
def scheduleNextPlacementExecutionLoop (placementExecutionIndex : Nat) :
    Nat → ShardCommandExecution → ExceptT String Option ShardCommandExecution
  | 0, _ => ExceptT.lift none
  | fuel + 1, shardCommandExecution =>
      let nextPlacementExecutionIndex := placementExecutionIndex + 1
      if shardCommandExecution.placementExecutions.length ≤ nextPlacementExecutionIndex then
        throw (cannotRecoverMessage
          (shardCommandExecution.placementExecutions.getD placementExecutionIndex default))
      else
        let shardCommandExecution :=
          if shardCommandExecution.placementState nextPlacementExecutionIndex = .notReady then
            placementExecutionReady shardCommandExecution nextPlacementExecutionIndex
          else shardCommandExecution
        if shardCommandExecution.placementState nextPlacementExecutionIndex = .failed then
          scheduleNextPlacementExecutionLoop placementExecutionIndex fuel shardCommandExecution
        else pure shardCommandExecution

/-- `ScheduleNextPlacementExecution`: after a failure in the `ANY` order, or after
anything in the `SEQUENTIAL` order, the next placement execution is made ready. -/
def scheduleNextPlacementExecution (fuel : Nat) (shardCommandExecution : ShardCommandExecution)
    (placementExecutionIndex : Nat) (succeeded : Bool) :
    ExceptT String Option ShardCommandExecution :=
  if (shardCommandExecution.executionOrder = .any ∧ !succeeded) ∨
      shardCommandExecution.executionOrder = .sequential then
    scheduleNextPlacementExecutionLoop placementExecutionIndex fuel shardCommandExecution
  else pure shardCommandExecution

/-- `PlacementExecutionDone` for the placement execution at `placementExecutionIndex`,
with `CanFailoverPlacementExecutionToLocalExecution` as `canFailover`. -/
def placementExecutionDone (fuel : Nat) (canFailover : Bool) (execution : DistributedExecution)
    (shardCommandExecution : ShardCommandExecution) (placementExecutionIndex : Nat)
    (succeeded : Bool) : ExceptT String Option (DistributedExecution × ShardCommandExecution) := do
  let executionState := shardCommandExecution.executionState
  let placementState := shardCommandExecution.placementState placementExecutionIndex
  -- a placement execution fails once, and never succeeds after failing
  if placementState = .failed then return (execution, shardCommandExecution)
  let (shardCommandExecution, failedPlacementExecutionIsOnPendingQueue) :=
    if succeeded then
      (shardCommandExecution.setPlacementState placementExecutionIndex .finished, false)
    else if canFailover then
      (shardCommandExecution.setPlacementState placementExecutionIndex .failoverToLocalExecution,
        false)
    else
      -- a pending placement execution fails with its pool or session and schedules nothing
      (shardCommandExecution.setPlacementState placementExecutionIndex .failed,
        decide (placementState = .notReady))
  if executionState ≠ .notFinished then return (execution, shardCommandExecution)
  let shardCommandExecution := taskExecutionStateMachine shardCommandExecution
  let unfinishedTaskCount := execution.unfinishedTaskCount - 1
  match shardCommandExecution.executionState with
  | .finished => return ({ execution with unfinishedTaskCount }, shardCommandExecution)
  | .failoverToLocalExecution =>
      return ({ execution with unfinishedTaskCount, failedOverToLocal := true },
        shardCommandExecution)
  | .failed => return ({ execution with unfinishedTaskCount, failed := true }, shardCommandExecution)
  | .notFinished =>
      if !failedPlacementExecutionIsOnPendingQueue then
        let shardCommandExecution ← scheduleNextPlacementExecution fuel shardCommandExecution
          placementExecutionIndex succeeded
        return (execution, shardCommandExecution)
      else return (execution, shardCommandExecution)

/-- What happens to the placement executions of a task. -/
inductive PlacementEvent
  /-- A session starts the placement execution (`StartPlacementExecutionOnSession`). -/
  | start (placementExecutionIndex : Nat)
  /-- The placement execution finishes or fails (`PlacementExecutionDone`). -/
  | done (placementExecutionIndex : Nat) (succeeded : Bool)
  /-- A worker pool or session fails (`WorkerPoolFailed`, `WorkerSessionFailed`): the
  placement executions of the task queued on it fail, in queue order. -/
  | failQueued (placementExecutionIndexes : List Nat)

/-- The executor's handling of one event. -/
def placementEventStep (fuel : Nat) (canFailover : Bool) :
    PlacementEvent → DistributedExecution × ShardCommandExecution →
      ExceptT String Option (DistributedExecution × ShardCommandExecution)
  | .start placementExecutionIndex, (execution, shardCommandExecution) =>
      pure (execution, shardCommandExecution.setPlacementState placementExecutionIndex .running)
  | .done placementExecutionIndex succeeded, (execution, shardCommandExecution) =>
      placementExecutionDone fuel canFailover execution shardCommandExecution
        placementExecutionIndex succeeded
  | .failQueued placementExecutionIndexes, state =>
      placementExecutionIndexes.foldlM
        (fun (execution, shardCommandExecution) placementExecutionIndex =>
          placementExecutionDone fuel canFailover execution shardCommandExecution
            placementExecutionIndex false)
        state

/-- The executor's handling of a sequence of events. -/
def runPlacementEvents (fuel : Nat) (canFailover : Bool) (events : List PlacementEvent)
    (state : DistributedExecution × ShardCommandExecution) :
    ExceptT String Option (DistributedExecution × ShardCommandExecution) :=
  events.foldlM (fun state event => placementEventStep fuel canFailover event state) state

/-- The task as `AssignTasksToConnectionsOrWorkerPool` builds it: one placement
execution per placement, in planning order, of which only the first is ready
unless the order is parallel. -/
def assignPlacementExecutions (executionOrder : PlacementExecutionOrder)
    (placements : List (String × Nat)) : ShardCommandExecution where
  executionOrder := executionOrder
  placementExecutions := placements.mapIdx fun placementExecutionIndex (nodeName, nodePort) =>
    ⟨nodeName, nodePort,
      if placementExecutionIndex = 0 ∨ executionOrder = .parallel then .ready else .notReady⟩
  executionState := .notFinished


section Handlers

@[simp] theorem taskExecutionStateMachine_placementExecutions
    (shardCommandExecution : ShardCommandExecution) :
    (taskExecutionStateMachine shardCommandExecution).placementExecutions =
      shardCommandExecution.placementExecutions := by
  unfold taskExecutionStateMachine
  split_ifs <;> rfl

@[simp] theorem taskExecutionStateMachine_executionOrder
    (shardCommandExecution : ShardCommandExecution) :
    (taskExecutionStateMachine shardCommandExecution).executionOrder =
      shardCommandExecution.executionOrder := by
  unfold taskExecutionStateMachine
  split_ifs <;> rfl

@[simp] theorem placementState_taskExecutionStateMachine
    (shardCommandExecution : ShardCommandExecution) (index : Nat) :
    (taskExecutionStateMachine shardCommandExecution).placementState index =
      shardCommandExecution.placementState index := by
  simp [placementState]

/-- The loop never ends once the placement execution after the finished one has
failed: every round looks at that same failed placement execution again. -/
theorem scheduleNextPlacementExecutionLoop_of_failed
    {shardCommandExecution : ShardCommandExecution} {placementExecutionIndex : Nat}
    (hnext : placementExecutionIndex + 1 < shardCommandExecution.placementExecutions.length)
    (hfailed : shardCommandExecution.placementState (placementExecutionIndex + 1) = .failed) :
    ∀ fuel, (scheduleNextPlacementExecutionLoop placementExecutionIndex fuel
      shardCommandExecution).run = none := by
  intro fuel
  induction fuel with
  | zero => rfl
  | succ fuel ih =>
    -- the round finds the failed placement execution and leaves the task as it was
    simp [scheduleNextPlacementExecutionLoop, Nat.not_le.mpr hnext, hfailed, ih]

/-- A pending placement execution that fails with its pool or session and leaves
the task unfinished schedules nothing. -/
theorem placementExecutionDone_of_pending (fuel : Nat) (execution : DistributedExecution)
    {shardCommandExecution : ShardCommandExecution} {placementExecutionIndex : Nat}
    (hunfinished : shardCommandExecution.executionState = .notFinished)
    (hpending : shardCommandExecution.placementState placementExecutionIndex = .notReady)
    (hstill : (taskExecutionStateMachine
      (shardCommandExecution.setPlacementState placementExecutionIndex .failed)).executionState =
        .notFinished) :
    placementExecutionDone fuel false execution shardCommandExecution placementExecutionIndex false =
      pure (execution, taskExecutionStateMachine
        (shardCommandExecution.setPlacementState placementExecutionIndex .failed)) := by
  simp [placementExecutionDone, hunfinished, hpending, hstill]

/-- In the `ANY` order, the failure of a started placement execution that leaves the
task unfinished never returns when the next placement execution has already failed. -/
theorem placementExecutionDone_of_next_failed (fuel : Nat) (execution : DistributedExecution)
    {shardCommandExecution : ShardCommandExecution} {placementExecutionIndex : Nat}
    (hany : shardCommandExecution.executionOrder = .any)
    (hunfinished : shardCommandExecution.executionState = .notFinished)
    (hstarted : shardCommandExecution.placementState placementExecutionIndex ≠ .notReady)
    (hnotFailed : shardCommandExecution.placementState placementExecutionIndex ≠ .failed)
    (hnext : placementExecutionIndex + 1 < shardCommandExecution.placementExecutions.length)
    (hfailed : shardCommandExecution.placementState (placementExecutionIndex + 1) = .failed)
    (hstill : (taskExecutionStateMachine
      (shardCommandExecution.setPlacementState placementExecutionIndex .failed)).executionState =
        .notFinished) :
    (placementExecutionDone fuel false execution shardCommandExecution placementExecutionIndex
      false).run = none := by
  -- the task after the failure still has the failed placement execution next
  have hloop : (scheduleNextPlacementExecutionLoop placementExecutionIndex fuel
      (taskExecutionStateMachine (shardCommandExecution.setPlacementState placementExecutionIndex
        .failed))).run = none := by
    apply scheduleNextPlacementExecutionLoop_of_failed
    · simpa using hnext
    · rw [placementState_taskExecutionStateMachine,
        placementState_setPlacementState_of_ne (by omega)]
      exact hfailed
  simp [placementExecutionDone, hunfinished, hnotFailed, hstarted, hstill,
    scheduleNextPlacementExecution, hany, hloop]

/-- A read task with a placement on each of the nodes a, b and c. -/
def threeNodeReadTask : ShardCommandExecution :=
  assignPlacementExecutions .any [("a", 5432), ("b", 5432), ("c", 5432)]

/-- An execution with the one unfinished task. -/
def oneTaskExecution : DistributedExecution := ⟨1, false, false⟩

/-- A read (`ANY` order) on three placements on nodes `a`, `b` and `c`. A session on
`a` starts the first placement execution; the pool of `b` fails while the second is
pending, which fails it and schedules nothing; then the session on `a` fails. The
first two events return, with whatever fuel, but the session's failure never does:
the search for the next placement execution stays at the failed second one. -/
theorem placementFailover_hangs :
    (∀ fuel, (runPlacementEvents fuel false [.start 0, .failQueued [1]]
        (oneTaskExecution, threeNodeReadTask)).run =
        some (.ok (oneTaskExecution, taskExecutionStateMachine
          ((threeNodeReadTask.setPlacementState 0 .running).setPlacementState 1 .failed)))) ∧
      ∀ fuel, (runPlacementEvents fuel false [.start 0, .failQueued [1], .failQueued [0]]
        (oneTaskExecution, threeNodeReadTask)).run = none := by
  have hpending : ∀ fuel, placementExecutionDone fuel false oneTaskExecution
      (threeNodeReadTask.setPlacementState 0 .running) 1 false =
        pure (oneTaskExecution, taskExecutionStateMachine
          ((threeNodeReadTask.setPlacementState 0 .running).setPlacementState 1 .failed)) :=
    fun fuel => placementExecutionDone_of_pending fuel oneTaskExecution (by decide) (by decide) (by decide)
  refine ⟨fun fuel => ?_, fun fuel => ?_⟩
  · simp [runPlacementEvents, placementEventStep, hpending]
  · have hhang : (placementExecutionDone fuel false oneTaskExecution
        (taskExecutionStateMachine
          ((threeNodeReadTask.setPlacementState 0 .running).setPlacementState 1 .failed)) 0
          false).run = none :=
      placementExecutionDone_of_next_failed fuel oneTaskExecution (by decide) (by decide) (by decide)
        (by decide) (by decide) (by decide) (by decide)
    simp [runPlacementEvents, placementEventStep, hpending, hhang]

end Handlers

end Citus.Executor
