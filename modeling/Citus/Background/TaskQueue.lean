import Citus.Lib.Run
import Citus.Lib.Worklist
import Mathlib

/-!
# The background task queue

Background jobs (`background_jobs.c`, `metadata_utility.c`) are lists of tasks in
`pg_dist_background_task`, with dependencies between tasks of one job in
`pg_dist_background_task_depend`. `ScheduleBackgroundTask` adds a task, blocked while it
has dependencies. One queue monitor per database runs the loop of
`CitusBackgroundTaskQueueMonitorMain`: in one transaction `AssignRunnableTasks` starts an
executor for each runnable task it may run, and in the next one it checks every executor
(`TaskConcurrentCancelCheck`, `ConsumeExecutorQueue`) and ends the tasks that finished
(`TaskHadError`, `TaskEnded`, which unblock or unschedule the dependent tasks). The
monitor counts, per node, the running tasks that involve it (`ParallelTasksPerNode`) and
runs at most `citus.max_background_task_executors_per_node` of them at once.
`citus_job_cancel` (`CancelTasksForJob`) runs in its own transaction, between the
monitor's.

Two runs show where the bookkeeping breaks. The counters are raised when
`GetRunnableBackgroundTask` selects a task, before its executor starts; when the start
fails because no background worker slot is free, nothing lowers them, and the task is
skipped while the monitor lives (`assignRunnableTasks_leaks_parallelTaskCount`). A task
cancelled right after it was assigned, before the monitor recorded its pid, is written
back as running by the monitor's next check (`taskConcurrentCancelCheck_revives_cancelled`).

## Implementation notes

* Rows are kept by the fields the queue reads; the command, owner, message and the job
  rows' status are left out. Tasks are never deleted.
* The monitor's loop is a phase: an `AssignRunnableTasks` transaction, then (while
  executors run) a monitoring transaction, then the next `AssignRunnableTasks`.
  Termination and cancellation signals of the monitor itself are not modelled.
* Starting an executor needs a free background worker slot; the number of free slots
  when `AssignRunnableTasks` runs is given by the environment. Each started executor
  gets the next process id.
* The iteration order of the executors hash is the order the executors started in.
-/

namespace Citus.Background

/-- `BackgroundTaskStatus`. -/
inductive BackgroundTaskStatus
  | blocked
  | runnable
  | running
  | cancelling
  | done
  | error
  | unscheduled
  | cancelled
  deriving DecidableEq, Repr

/-- `IsBackgroundTaskStatusTerminal`. -/
def isBackgroundTaskStatusTerminal : BackgroundTaskStatus → Bool
  | .cancelled | .done | .error | .unscheduled => true
  | .blocked | .cancelling | .runnable | .running => false

/-- A row of `pg_dist_background_task`. -/
structure BackgroundTask where
  jobid : Nat
  taskid : Nat
  status : BackgroundTaskStatus
  pid : Option Nat
  retryCount : Option Nat
  notBefore : Option Nat
  nodesInvolved : List Nat
  deriving DecidableEq, Repr

/-- A row of `pg_dist_background_task_depend`: `taskId` depends on `dependsOn`. -/
structure BackgroundTaskDepend where
  jobId : Nat
  taskId : Nat
  dependsOn : Nat
  deriving DecidableEq, Repr

/-- The catalog of the queue, with the sequences that number jobs and tasks. Tasks are
kept in task id order, the order of the index scans. -/
structure TaskCatalog where
  jobs : List Nat
  tasks : List BackgroundTask
  depends : List BackgroundTaskDepend
  nextJobId : Nat
  nextTaskId : Nat
  deriving DecidableEq, Repr

namespace TaskCatalog

def empty : TaskCatalog := ⟨[], [], [], 1, 1⟩

/-- `GetBackgroundTaskByTaskId`. -/
def getBackgroundTaskByTaskId (catalog : TaskCatalog) (taskId : Nat) : Option BackgroundTask :=
  catalog.tasks.find? (·.taskid == taskId)

/-- `UpdateBackgroundTask`: the task's row is replaced. -/
def updateBackgroundTask (catalog : TaskCatalog) (task : BackgroundTask) : TaskCatalog :=
  { catalog with
    tasks := catalog.tasks.map fun row => if row.taskid = task.taskid then task else row }

/-- `CreateBackgroundJob`. -/
def createBackgroundJob (catalog : TaskCatalog) : TaskCatalog × Nat :=
  ({ catalog with jobs := catalog.jobs ++ [catalog.nextJobId], nextJobId := catalog.nextJobId + 1 },
    catalog.nextJobId)

/-- `ScheduleBackgroundTask`: the new task is runnable without dependencies and blocked
with them; each dependency must be a task of the same job. Returns the new task id. -/
def scheduleBackgroundTask (catalog : TaskCatalog) (jobId : Nat) (dependingTaskIds : List Nat)
    (nodesInvolved : List Nat) : Except String (TaskCatalog × Nat) :=
  if jobId ∉ catalog.jobs then .error "job for newly created task does not exist."
  else if dependingTaskIds.all fun dependsOn =>
      catalog.tasks.any fun task => task.jobid == jobId && task.taskid == dependsOn then
    let taskId := catalog.nextTaskId
    let status := if dependingTaskIds.isEmpty then .runnable else .blocked
    .ok ({ catalog with
        tasks := catalog.tasks ++ [⟨jobId, taskId, status, none, none, none, nodesInvolved⟩]
        depends := catalog.depends ++ dependingTaskIds.map fun dependsOn => ⟨jobId, taskId, dependsOn⟩
        nextTaskId := taskId + 1 },
      taskId)
  else .error "depending task for newly scheduled task does not exist"

/-- `BackgroundTaskHasUmnetDependencies`: some task it depends on is not done. -/
def backgroundTaskHasUmnetDependencies (catalog : TaskCatalog) (jobId taskId : Nat) : Bool :=
  catalog.depends.any fun depend =>
    depend.jobId == jobId && depend.taskId == taskId &&
      ((catalog.getBackgroundTaskByTaskId depend.dependsOn).map (·.status) != some .done)

/-- `BackgroundTaskReadyToRun`: its backoff has passed and its dependencies are done. -/
def backgroundTaskReadyToRun (catalog : TaskCatalog) (now : Nat) (task : BackgroundTask) : Bool :=
  (match task.notBefore with
    | some notBefore => !(notBefore > now)
    | none => true) &&
    !catalog.backgroundTaskHasUmnetDependencies task.jobid task.taskid

/-- `GetDependantTasks`. -/
def getDependantTasks (catalog : TaskCatalog) (jobId taskId : Nat) : List Nat :=
  (catalog.depends.filter fun depend => depend.jobId == jobId && depend.dependsOn == taskId).map
    (·.taskId)

/-- The status column of one task set. -/
def setTaskStatus (catalog : TaskCatalog) (taskId : Nat) (status : BackgroundTaskStatus) :
    TaskCatalog :=
  { catalog with
    tasks := catalog.tasks.map fun row => if row.taskid = taskId then { row with status } else row }

/-- One task of `UnscheduleDependentTasks`'s stack: its dependants are pushed and it is
unscheduled. -/
def unscheduleStep (jobId : Nat) (taskId : Nat) (state : TaskCatalog × List Nat) :
    TaskCatalog × List Nat :=
  (state.1.setTaskStatus taskId .unscheduled, state.2 ++ state.1.getDependantTasks jobId taskId)

/-- The last task of the stack, popped. -/
def popLast (state : TaskCatalog × List Nat) : Option (Nat × (TaskCatalog × List Nat)) :=
  state.2.getLast?.map fun taskId => (taskId, (state.1, state.2.dropLast))

/-- `UnscheduleDependentTasks`: every task that depends on the task, directly or through
others, is unscheduled. The stack loop pops each path of dependencies once; an acyclic
graph with `depends.length` edges has at most `2 ^ depends.length` of them. -/
def unscheduleDependentTasks (catalog : TaskCatalog) (task : BackgroundTask) : TaskCatalog :=
  (Worklist.drain popLast (unscheduleStep task.jobid) (2 ^ catalog.depends.length + 1)
    (catalog, catalog.getDependantTasks task.jobid task.taskid)).1

/-- `UnblockDependingBackgroundTasks`: each task depending on the task that has no
unmet dependency left becomes runnable, unless it was cancelled. -/
def unblockDependingBackgroundTasks (catalog : TaskCatalog) (task : BackgroundTask) :
    TaskCatalog :=
  (catalog.depends.filter fun depend => depend.jobId == task.jobid && depend.dependsOn == task.taskid).foldl
    (fun catalog depend =>
      if catalog.backgroundTaskHasUmnetDependencies task.jobid depend.taskId then catalog
      else
        match catalog.getBackgroundTaskByTaskId depend.taskId with
        | some unblockedTask =>
            if unblockedTask.status = .cancelled then catalog
            else catalog.updateBackgroundTask { unblockedTask with status := .runnable }
        | none => catalog)
    catalog

/-- `UpdateDependingTasks`. -/
def updateDependingTasks (catalog : TaskCatalog) (task : BackgroundTask) : TaskCatalog :=
  match task.status with
  | .done => catalog.unblockDependingBackgroundTasks task
  | .error => catalog.unscheduleDependentTasks task
  | _ => catalog

/-- The status `CancelTasksForJob` gives a task that is not terminal: a running task
with a pid is signalled and cancelling, any other is cancelled. -/
def cancelledStatus (task : BackgroundTask) : BackgroundTaskStatus :=
  if task.status = .running ∧ task.pid.isSome then .cancelling else .cancelled

/-- `CancelTasksForJob`: the new catalog and the pids to signal. -/
def cancelTasksForJob (catalog : TaskCatalog) (jobId : Nat) : TaskCatalog × List Nat :=
  ({ catalog with
      tasks := catalog.tasks.map fun task =>
        if task.jobid = jobId ∧ !isBackgroundTaskStatusTerminal task.status then
          { task with status := cancelledStatus task }
        else task },
    catalog.tasks.filterMap fun task =>
      if task.jobid = jobId ∧ !isBackgroundTaskStatusTerminal task.status ∧ task.status = .running then
        task.pid
      else none)

/-- `ResetRunningBackgroundTasks`: running tasks become runnable and lose their pid. -/
def resetRunningBackgroundTasks (catalog : TaskCatalog) : TaskCatalog :=
  { catalog with
    tasks := catalog.tasks.map fun task =>
      if task.status = .running then { task with status := .runnable, pid := none } else task }

end TaskCatalog

/-- `CalculateBackoffDelay`, in milliseconds; negative when the task is out of retries. -/
def calculateBackoffDelay (retryCount : Nat) : Int :=
  if retryCount = 1 then 5 * 1000
  else if retryCount = 2 then 20 * 1000
  else if retryCount ≤ 32 then 60 * 1000
  else -1

/-- The settings the monitor reads. -/
structure QueueMonitorConfig where
  maxBackgroundTaskExecutors : Nat
  maxBackgroundTaskExecutorsPerNode : Nat

/-- `BackgroundExecutorHashEntry`, with the pid of the executor's background worker. -/
structure BackgroundExecutorHashEntry where
  taskid : Nat
  jobid : Nat
  pid : Nat
  deriving DecidableEq, Repr

/-- Where the monitor's loop is. -/
inductive MonitorPhase
  | assignRunnableTasks
  | monitorExecutors
  | stopped
  deriving DecidableEq, Repr

/-- The queue monitor's `QueueMonitorExecutionContext` and its `ParallelTasksPerNode`. -/
structure QueueMonitor where
  currentExecutors : List BackgroundExecutorHashEntry
  currentExecutorCount : Nat
  parallelTasksPerNode : Nat → UInt32
  phase : MonitorPhase
  nextWorkerPid : Nat

/-- A monitor just started. -/
def QueueMonitor.initial (nextWorkerPid : Nat) : QueueMonitor :=
  ⟨[], 0, fun _ => 0, .assignRunnableTasks, nextWorkerPid⟩

/-- The queue: its catalog, its monitor, and the time. -/
structure TaskQueue where
  catalog : TaskCatalog
  monitor : QueueMonitor
  now : Nat

/-- What `ReadFromExecutorQueue` reports for an executor: an error message, the queue
detached after success, or nothing yet. -/
inductive ExecutorQueueResult
  | hadError
  | detached
  | wouldBlock
  deriving DecidableEq, Repr

section Monitor

variable (config : QueueMonitorConfig)

/-- `IncrementParallelTaskCountForNodesInvolved`: none if some node involved is at its
limit, and otherwise the counters raised once per node involved. -/
def incrementParallelTaskCountForNodesInvolved (counters : Nat → UInt32) (task : BackgroundTask) :
    Option (Nat → UInt32) :=
  if task.nodesInvolved.any fun node => (counters node).toNat ≥ config.maxBackgroundTaskExecutorsPerNode then
    none
  else
    some (task.nodesInvolved.foldl (fun counters node => Function.update counters node (counters node + 1))
      counters)

/-- `DecrementParallelTaskCountForNodesInvolved`. -/
def decrementParallelTaskCountForNodesInvolved (counters : Nat → UInt32) (task : BackgroundTask) :
    Nat → UInt32 :=
  task.nodesInvolved.foldl (fun counters node => Function.update counters node (counters node - 1))
    counters

/-- `GetRunnableBackgroundTask`: the first runnable task, in task id order, that is ready
to run and whose nodes have room, with the counters raised for it. -/
def getRunnableBackgroundTask (queue : TaskQueue) : Option (BackgroundTask × (Nat → UInt32)) :=
  (queue.catalog.tasks.filter (·.status = .runnable)).findSome? fun task =>
    if queue.catalog.backgroundTaskReadyToRun queue.now task then
      (incrementParallelTaskCountForNodesInvolved config queue.monitor.parallelTasksPerNode task).map
        fun counters => (task, counters)
    else none

/-- `NewExecutorExceedsCitusLimit`. -/
def newExecutorExceedsCitusLimit (monitor : QueueMonitor) : Bool :=
  monitor.currentExecutorCount ≥ config.maxBackgroundTaskExecutors

/-- The executor of `AssignRunnableTaskToNewExecutor` started: its entry is added and the
task is running. -/
def startExecutor (queue : TaskQueue) (task : BackgroundTask) : TaskQueue :=
  { queue with
    catalog := queue.catalog.updateBackgroundTask { task with status := .running }
    monitor := { queue.monitor with
      currentExecutors := queue.monitor.currentExecutors ++
        [⟨task.taskid, task.jobid, queue.monitor.nextWorkerPid⟩]
      currentExecutorCount := queue.monitor.currentExecutorCount + 1
      nextWorkerPid := queue.monitor.nextWorkerPid + 1 } }

/-- The loop of `AssignRunnableTasks` with `AssignRunnableTaskToNewExecutor`, given the
free background worker slots: it stops at the first task it cannot start, after the
counters were raised for it. -/
def assignRunnableTasksLoop : Nat → TaskQueue → TaskQueue
  | freeWorkerSlots, queue =>
      match getRunnableBackgroundTask config queue with
      | none => queue
      | some (task, counters) =>
          let queue := { queue with monitor := { queue.monitor with parallelTasksPerNode := counters } }
          if newExecutorExceedsCitusLimit config queue.monitor then queue
          else
            match freeWorkerSlots with
            -- `StartCitusBackgroundTaskExecutor` returns no handle
            | 0 => queue
            | freeWorkerSlots + 1 => assignRunnableTasksLoop freeWorkerSlots (startExecutor queue task)

/-- `TaskEnded`: the task's row is written, its dependants updated, the counters of its
nodes lowered and its executor removed. -/
def taskEnded (queue : TaskQueue) (task : BackgroundTask) : TaskQueue :=
  let task := { task with pid := none }
  { queue with
    catalog := (queue.catalog.updateBackgroundTask task).updateDependingTasks task
    monitor := { queue.monitor with
      parallelTasksPerNode :=
        decrementParallelTaskCountForNodesInvolved queue.monitor.parallelTasksPerNode task
      currentExecutors := queue.monitor.currentExecutors.filter (·.taskid ≠ task.taskid)
      currentExecutorCount := queue.monitor.currentExecutorCount - 1 } }

/-- `TaskHadError`: one more retry, runnable again after the backoff or an error when
out of retries; then `TaskEnded`. -/
def taskHadError (queue : TaskQueue) (task : BackgroundTask) : TaskQueue :=
  let retryCount := match task.retryCount with
    | none => 1
    | some retryCount => retryCount + 1
  let delayMs := calculateBackoffDelay retryCount
  let task :=
    if delayMs < 0 then
      { task with retryCount := some retryCount, status := .error, notBefore := none }
    else
      { task with
        retryCount := some retryCount
        notBefore := some (queue.now + delayMs.toNat)
        status := .runnable }
  taskEnded queue task

/-- One executor in the monitor's transaction: `TaskConcurrentCancelCheck`, then
`ConsumeExecutorQueue` and `TaskHadError` or `TaskEnded`. -/
def monitorExecutor (results : Nat → ExecutorQueueResult) (queue : TaskQueue)
    (entry : BackgroundExecutorHashEntry) : TaskQueue :=
  match queue.catalog.getBackgroundTaskByTaskId entry.taskid with
  | none => queue
  | some task =>
      if task.status = .cancelling then taskEnded queue { task with status := .cancelled }
      else
        -- not cancelling: the task is written back as running, with the executor's pid
        let task := { task with status := .running, pid := some entry.pid }
        let queue := { queue with catalog := queue.catalog.updateBackgroundTask task }
        match results entry.taskid with
        | .hadError => taskHadError queue task
        | .detached => taskEnded queue { task with status := .done }
        | .wouldBlock => queue

end Monitor

/-- What happens to the queue. -/
inductive TaskQueueEvent
  | createBackgroundJob
  | scheduleBackgroundTask (jobId : Nat) (dependingTaskIds : List Nat) (nodesInvolved : List Nat)
  /-- `citus_job_cancel`. -/
  | cancelJob (jobId : Nat)
  /-- A new monitor starts: `ResetRunningBackgroundTasks`, and a fresh context. -/
  | startMonitor
  /-- The monitor's `AssignRunnableTasks` transaction, with the free worker slots. -/
  | assignRunnableTasks (freeWorkerSlots : Nat)
  /-- The monitor's transaction over its executors, with what each executor reports. -/
  | monitorExecutors (results : Nat → ExecutorQueueResult)
  | tick (elapsedMs : Nat)

/-- One event, if it is enabled. -/
def taskQueueStep (config : QueueMonitorConfig) (queue : TaskQueue) :
    TaskQueueEvent → Option TaskQueue
  | .createBackgroundJob => some { queue with catalog := queue.catalog.createBackgroundJob.1 }
  | .scheduleBackgroundTask jobId dependingTaskIds nodesInvolved =>
      match queue.catalog.scheduleBackgroundTask jobId dependingTaskIds nodesInvolved with
      | .ok (catalog, _) => some { queue with catalog }
      | .error _ => none
  | .cancelJob jobId => some { queue with catalog := (queue.catalog.cancelTasksForJob jobId).1 }
  | .startMonitor =>
      if queue.monitor.phase = .stopped then
        some { queue with
          catalog := queue.catalog.resetRunningBackgroundTasks
          monitor := QueueMonitor.initial queue.monitor.nextWorkerPid }
      else none
  | .assignRunnableTasks freeWorkerSlots =>
      if queue.monitor.phase = .assignRunnableTasks then
        let queue := assignRunnableTasksLoop config freeWorkerSlots queue
        -- the loop goes on while executors run
        some { queue with monitor := { queue.monitor with
          phase := if queue.monitor.currentExecutors.isEmpty then .stopped else .monitorExecutors } }
      else none
  | .monitorExecutors results =>
      if queue.monitor.phase = .monitorExecutors then
        let queue := queue.monitor.currentExecutors.foldl (monitorExecutor results) queue
        some { queue with monitor := { queue.monitor with phase := .assignRunnableTasks } }
      else none
  | .tick elapsedMs => some { queue with now := queue.now + elapsedMs }

/-- A queue with no jobs and its monitor not started. -/
def TaskQueue.initial : TaskQueue := ⟨TaskCatalog.empty, { QueueMonitor.initial 1 with phase := .stopped }, 0⟩

/-- The default settings: four executors, one per node. -/
def defaultConfig : QueueMonitorConfig := ⟨4, 1⟩

/-- The number of running tasks, held by the monitor's executors, that involve a node. -/
def executorNodeCount (queue : TaskQueue) (node : Nat) : Nat :=
  (queue.monitor.currentExecutors.map fun entry =>
    ((queue.catalog.getBackgroundTaskByTaskId entry.taskid).map fun task =>
      task.nodesInvolved.count node).getD 0).sum

/-! ## A failed executor start keeps its counts -/

/-- Tasks `1` and `2` of job `1` involve nodes `1` and `2`. The monitor starts with one
free worker slot: task `1` starts, task `2` is selected and cannot start. While task `1`
runs, worker slots free up, yet task `2` is not started. -/
def failedStartEvents : List TaskQueueEvent :=
  [.createBackgroundJob, .scheduleBackgroundTask 1 [] [1], .scheduleBackgroundTask 1 [] [2],
    .startMonitor, .assignRunnableTasks 1, .monitorExecutors fun _ => .wouldBlock]

theorem assignRunnableTasks_leaks_parallelTaskCount :
    ∃ queue, failedStartEvents.foldlM (taskQueueStep defaultConfig) TaskQueue.initial = some queue ∧
      queue.monitor.phase = .assignRunnableTasks ∧
      (queue.monitor.parallelTasksPerNode 2).toNat = 1 ∧ executorNodeCount queue 2 = 0 ∧
      ∃ next, taskQueueStep defaultConfig queue (.assignRunnableTasks 4) = some next ∧
        next.monitor.currentExecutors.map (·.taskid) = [1] ∧
        (next.catalog.getBackgroundTaskByTaskId 2).map (·.status) = some .runnable :=
  ⟨_, rfl, rfl, rfl, rfl, _, rfl, rfl, rfl⟩

/-! ## A cancelled task revived -/

/-- Task `1` is assigned; its job is cancelled before the monitor records the executor's
pid, so the task is cancelled; the monitor's next check writes it back as running. -/
def cancelBeforePidEvents : List TaskQueueEvent :=
  [.createBackgroundJob, .scheduleBackgroundTask 1 [] [], .startMonitor, .assignRunnableTasks 1,
    .cancelJob 1]

theorem taskConcurrentCancelCheck_revives_cancelled :
    ∃ queue, cancelBeforePidEvents.foldlM (taskQueueStep defaultConfig) TaskQueue.initial = some queue ∧
      (queue.catalog.getBackgroundTaskByTaskId 1).map (·.status) = some .cancelled ∧
      ∃ next, taskQueueStep defaultConfig queue (.monitorExecutors fun _ => .wouldBlock) = some next ∧
        (next.catalog.getBackgroundTaskByTaskId 1).map (·.status) = some .running :=
  ⟨_, rfl, rfl, _, rfl, rfl⟩

end Citus.Background
