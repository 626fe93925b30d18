import Citus.Background.TaskQueue
import Citus.Lib.ListUpdate
import Mathlib

/-!
# No background task runs before its dependencies are done

A task of a background job may depend on earlier tasks of its job, and
`BackgroundTaskReadyToRun` lets the queue monitor start it only when every one of them is
done. The catalog changes under the monitor in many ways, though. `CancelTasksForJob`,
monitor restarts, retries after errors, `UnblockDependingBackgroundTasks` and
`UnscheduleDependentTasks` all rewrite statuses. The monitor also writes a task back as
running with every check of its executor, even a task cancelled in between
(`taskConcurrentCancelCheck_revives_cancelled`).

None of this lets a task run early. Over every run of the queue, every task that is
runnable, running, cancelling or done, and every task an executor holds, has all the
tasks it depends on done (`taskQueue_dependencies_done`). A done row is never written
again.

The proof is an invariant of the queue (`QueueInvariant`), kept by every event. Two
arguments carry it. Each status the code writes is written either from a status that
already needed the dependencies done, or right after checking them. And no task that
depends, directly or through others, on a task that is not done can have its own
dependencies done (`not_dependenciesDone_of_transGen`). So `UnblockDependingBackgroundTasks`
and `UnscheduleDependentTasks`, which only touch such tasks when a task ends, never
rewrite a done task or one an executor holds.
-/

namespace Citus.Background

/-- The statuses of a task that may be picked up or has run. -/
def activeStatus : BackgroundTaskStatus → Bool
  | .runnable | .running | .cancelling | .done => true
  | .blocked | .error | .unscheduled | .cancelled => false

/-- The statuses of a task an executor of the monitor holds. -/
def executorStatus : BackgroundTaskStatus → Bool
  | .running | .cancelling | .cancelled => true
  | .blocked | .runnable | .done | .error | .unscheduled => false

namespace TaskCatalog

variable {catalog catalog' catalog'' : TaskCatalog}

/-- Every task the task depends on is a done task of the catalog. -/
def DependenciesDone (catalog : TaskCatalog) (taskId : Nat) : Prop :=
  ∀ depend ∈ catalog.depends, depend.taskId = taskId →
    ∃ task ∈ catalog.tasks, task.taskid = depend.dependsOn ∧ task.status = .done

/-- `catalog'` keeps every done row of `catalog` as it is. -/
def KeepsDone (catalog catalog' : TaskCatalog) : Prop :=
  ∀ task ∈ catalog.tasks, task.status = .done → task ∈ catalog'.tasks

theorem KeepsDone.refl (catalog : TaskCatalog) : KeepsDone catalog catalog :=
  fun _ hmem _ => hmem

theorem KeepsDone.trans (h : KeepsDone catalog catalog') (h' : KeepsDone catalog' catalog'') :
    KeepsDone catalog catalog'' :=
  fun task hmem hdone => h' task (h task hmem hdone) hdone

theorem DependenciesDone.of_keepsDone {taskId : Nat} (h : catalog.DependenciesDone taskId)
    (hkeep : KeepsDone catalog catalog') (hdepends : catalog'.depends = catalog.depends) :
    catalog'.DependenciesDone taskId := by
  intro depend hmem hid
  obtain ⟨task, htask, htaskId, hdone⟩ := h depend (hdepends ▸ hmem) hid
  exact ⟨task, hkeep task htask hdone, htaskId, hdone⟩

/-- What every catalog the queue reaches keeps: task ids below the next one and
distinct, dependencies on earlier tasks of the same job, and every task that may run
with its dependencies done. -/
structure CatalogInvariant (catalog : TaskCatalog) : Prop where
  ids_lt : ∀ task ∈ catalog.tasks, task.taskid < catalog.nextTaskId
  ids_nodup : (catalog.tasks.map (·.taskid)).Nodup
  depends_lt : ∀ depend ∈ catalog.depends,
    depend.dependsOn < depend.taskId ∧ depend.taskId < catalog.nextTaskId
  depends_job : ∀ depend ∈ catalog.depends, ∀ task ∈ catalog.tasks,
    task.taskid = depend.taskId → task.jobid = depend.jobId
  active : ∀ task ∈ catalog.tasks, activeStatus task.status = true →
    catalog.DependenciesDone task.taskid

namespace CatalogInvariant

theorem eq_of_taskid_eq (h : CatalogInvariant catalog) {task task' : BackgroundTask}
    (hmem : task ∈ catalog.tasks) (hmem' : task' ∈ catalog.tasks) (hid : task.taskid = task'.taskid) :
    task = task' :=
  List.inj_on_of_nodup_map h.ids_nodup hmem hmem' hid

/-- Rewriting every row by a function that keeps task ids and jobs keeps the invariant
when done rows stay as they are and every row that becomes one that may run already
had its dependencies done. -/
theorem map (h : CatalogInvariant catalog) (f : BackgroundTask → BackgroundTask)
    (hid : ∀ task ∈ catalog.tasks, (f task).taskid = task.taskid)
    (hjob : ∀ task ∈ catalog.tasks, (f task).jobid = task.jobid)
    (hdone : ∀ task ∈ catalog.tasks, task.status = .done → f task = task)
    (hactive : ∀ task ∈ catalog.tasks, activeStatus (f task).status = true →
      catalog.DependenciesDone task.taskid) :
    CatalogInvariant { catalog with tasks := catalog.tasks.map f } ∧
      KeepsDone catalog { catalog with tasks := catalog.tasks.map f } := by
  have hkeep : KeepsDone catalog { catalog with tasks := catalog.tasks.map f } :=
    fun task hmem hstatus => hdone task hmem hstatus ▸ List.mem_map_of_mem hmem
  refine ⟨⟨?_, ?_, h.depends_lt, ?_, ?_⟩, hkeep⟩
  · intro task' hmem'
    obtain ⟨task, hmem, rfl⟩ := List.mem_map.mp hmem'
    rw [hid task hmem]
    exact h.ids_lt task hmem
  · rw [List.map_map]
    convert h.ids_nodup using 1
    exact List.map_congr_left fun task hmem => hid task hmem
  · intro depend hdep task' hmem' htaskId
    obtain ⟨task, hmem, rfl⟩ := List.mem_map.mp hmem'
    rw [hjob task hmem]
    exact h.depends_job depend hdep task hmem ((hid task hmem).symm.trans htaskId)
  · intro task' hmem' hactive'
    obtain ⟨task, hmem, rfl⟩ := List.mem_map.mp hmem'
    rw [hid task hmem]
    exact (hactive task hmem hactive').of_keepsDone hkeep rfl

end CatalogInvariant

/-! ## Looking a task up -/

theorem getBackgroundTaskByTaskId_eq_some {taskId : Nat} {task : BackgroundTask}
    (h : catalog.getBackgroundTaskByTaskId taskId = some task) :
    task ∈ catalog.tasks ∧ task.taskid = taskId := by
  unfold getBackgroundTaskByTaskId at h
  exact ⟨List.mem_of_find?_eq_some h, by simpa using List.find?_some h⟩

theorem CatalogInvariant.getBackgroundTaskByTaskId (h : CatalogInvariant catalog)
    {task : BackgroundTask} (hmem : task ∈ catalog.tasks) :
    catalog.getBackgroundTaskByTaskId task.taskid = some task := by
  cases hfind : catalog.getBackgroundTaskByTaskId task.taskid with
  | none =>
      unfold TaskCatalog.getBackgroundTaskByTaskId at hfind
      exact absurd (List.find?_eq_none.mp hfind task hmem) (by simp)
  | some found =>
      obtain ⟨hfound, hid⟩ := getBackgroundTaskByTaskId_eq_some hfind
      rw [h.eq_of_taskid_eq hfound hmem hid]

/-- No unmet dependency of a task in its own job is all its dependencies done. -/
theorem dependenciesDone_of_hasUmnetDependencies (h : CatalogInvariant catalog)
    {task : BackgroundTask} (hmem : task ∈ catalog.tasks)
    (hmet : catalog.backgroundTaskHasUmnetDependencies task.jobid task.taskid = false) :
    catalog.DependenciesDone task.taskid := by
  intro depend hdep hid
  have hjob : task.jobid = depend.jobId := h.depends_job depend hdep task hmem hid.symm
  have hrow := List.any_eq_false.mp hmet depend hdep
  simp only [hjob, hid, beq_self_eq_true, Bool.true_and, bne_iff_ne, ne_eq, Decidable.not_not]
    at hrow
  cases hfound : catalog.getBackgroundTaskByTaskId depend.dependsOn with
  | none => simp [hfound] at hrow
  | some found =>
      rw [hfound, Option.map_some, Option.some.injEq] at hrow
      obtain ⟨hmem', hid'⟩ := getBackgroundTaskByTaskId_eq_some hfound
      exact ⟨found, hmem', hid', hrow⟩

/-! ## The catalog operations -/

/-- A task `ScheduleBackgroundTask` adds: the next task id, runnable exactly without
dependencies. -/
def scheduledTask (catalog : TaskCatalog) (jobId : Nat) (dependingTaskIds nodesInvolved : List Nat) :
    BackgroundTask :=
  ⟨jobId, catalog.nextTaskId, if dependingTaskIds.isEmpty then .runnable else .blocked, none, none,
    none, nodesInvolved⟩

/-- What a successful `ScheduleBackgroundTask` does: its dependencies are tasks of the
job, and the task and its dependency rows are appended. -/
theorem scheduleBackgroundTask_eq_ok {jobId taskId : Nat} {dependingTaskIds nodesInvolved : List Nat}
    (hok : catalog.scheduleBackgroundTask jobId dependingTaskIds nodesInvolved =
      .ok (catalog', taskId)) :
    (∀ dependsOn ∈ dependingTaskIds, ∃ task ∈ catalog.tasks, task.jobid = jobId ∧
      task.taskid = dependsOn) ∧
    catalog' = { catalog with
      tasks := catalog.tasks ++ [scheduledTask catalog jobId dependingTaskIds nodesInvolved]
      depends := catalog.depends ++ dependingTaskIds.map fun dependsOn =>
        ⟨jobId, catalog.nextTaskId, dependsOn⟩
      nextTaskId := catalog.nextTaskId + 1 } := by
  unfold TaskCatalog.scheduleBackgroundTask at hok
  split at hok
  · cases hok
  split at hok
  · rename_i hexisting
    cases hok
    refine ⟨fun dependsOn hmem => ?_, rfl⟩
    obtain ⟨task, htask, hmatch⟩ :=
      List.any_eq_true.mp (List.all_eq_true.mp hexisting dependsOn hmem)
    simp only [Bool.and_eq_true, beq_iff_eq] at hmatch
    exact ⟨task, htask, hmatch⟩
  · cases hok

namespace CatalogInvariant

/-- `ScheduleBackgroundTask` adds a task with a fresh id, runnable only without
dependencies, and rows for dependencies on earlier tasks of its job. -/
theorem scheduleBackgroundTask (h : CatalogInvariant catalog) {jobId taskId : Nat}
    {dependingTaskIds nodesInvolved : List Nat}
    (hok : catalog.scheduleBackgroundTask jobId dependingTaskIds nodesInvolved =
      .ok (catalog', taskId)) :
    CatalogInvariant catalog' ∧ KeepsDone catalog catalog' ∧
      (∀ task ∈ catalog.tasks, task ∈ catalog'.tasks) ∧
      ∀ task ∈ catalog.tasks, catalog.DependenciesDone task.taskid →
        catalog'.DependenciesDone task.taskid := by
  obtain ⟨hexisting, rfl⟩ := scheduleBackgroundTask_eq_ok hok
  -- every dependency is an existing task, so below the new id
  have hdeps : ∀ dependsOn ∈ dependingTaskIds, dependsOn < catalog.nextTaskId := by
    intro dependsOn hmem
    obtain ⟨task, htask, -, rfl⟩ := hexisting dependsOn hmem
    exact h.ids_lt task htask
  have hfresh : ∀ task ∈ catalog.tasks, task.taskid ≠ catalog.nextTaskId :=
    fun task htask => Nat.ne_of_lt (h.ids_lt task htask)
  -- the old tasks keep their dependencies: the new rows belong to the new task
  have hold : ∀ task ∈ catalog.tasks, catalog.DependenciesDone task.taskid →
      TaskCatalog.DependenciesDone { catalog with
        tasks := catalog.tasks ++ [scheduledTask catalog jobId dependingTaskIds nodesInvolved]
        depends := catalog.depends ++ dependingTaskIds.map fun dependsOn =>
          ⟨jobId, catalog.nextTaskId, dependsOn⟩
        nextTaskId := catalog.nextTaskId + 1 } task.taskid := by
    intro task htask hdone depend hdep hid
    rcases List.mem_append.mp hdep with hdep | hdep
    · obtain ⟨found, hfound, hfoundId, hstatus⟩ := hdone depend hdep hid
      exact ⟨found, List.mem_append_left _ hfound, hfoundId, hstatus⟩
    · obtain ⟨dependsOn, -, rfl⟩ := List.mem_map.mp hdep
      exact absurd hid.symm (hfresh task htask)
  refine ⟨⟨?_, ?_, ?_, ?_, ?_⟩, fun task hmem _ => List.mem_append_left _ hmem,
    fun task hmem => List.mem_append_left _ hmem, hold⟩
  · intro task hmem
    rcases List.mem_append.mp hmem with hmem | hmem
    · exact Nat.lt_succ_of_lt (h.ids_lt task hmem)
    · rw [List.mem_singleton.mp hmem]
      exact Nat.lt_succ_self _
  · exact ListUpdate.nodup_map_append_singleton h.ids_nodup hfresh
  · intro depend hdep
    rcases List.mem_append.mp hdep with hdep | hdep
    · obtain ⟨hlt, hnext⟩ := h.depends_lt depend hdep
      exact ⟨hlt, Nat.lt_succ_of_lt hnext⟩
    · obtain ⟨dependsOn, hmem, rfl⟩ := List.mem_map.mp hdep
      exact ⟨hdeps dependsOn hmem, Nat.lt_succ_self _⟩
  · intro depend hdep task htask hid
    rcases List.mem_append.mp hdep with hdep | hdep
    · rcases List.mem_append.mp htask with htask | htask
      · exact h.depends_job depend hdep task htask hid
      · rw [List.mem_singleton.mp htask] at hid
        exact absurd hid (Nat.ne_of_gt (h.depends_lt depend hdep).2)
    · obtain ⟨dependsOn, -, rfl⟩ := List.mem_map.mp hdep
      rcases List.mem_append.mp htask with htask | htask
      · exact absurd hid (hfresh task htask)
      · rw [List.mem_singleton.mp htask]
        rfl
  · intro task hmem hactive
    rcases List.mem_append.mp hmem with hmem | hmem
    · exact hold task hmem (h.active task hmem hactive)
    · -- the new task may run only without dependencies, and then has no rows
      rw [List.mem_singleton.mp hmem] at hactive ⊢
      intro depend hdep hid
      rcases List.mem_append.mp hdep with hdep | hdep
      · exact absurd hid (Nat.ne_of_lt (h.depends_lt depend hdep).2)
      · have hempty : dependingTaskIds.isEmpty = true := by
          by_contra hcontra
          rw [Bool.not_eq_true] at hcontra
          simp [scheduledTask, hcontra, activeStatus] at hactive
        obtain ⟨dependsOn, hmem', -⟩ := List.mem_map.mp hdep
        exact absurd hempty (by simp [List.ne_nil_of_mem hmem'])

end CatalogInvariant

/-- The rows `CancelTasksForJob` writes. -/
def cancelledRow (jobId : Nat) (task : BackgroundTask) : BackgroundTask :=
  if task.jobid = jobId ∧ !isBackgroundTaskStatusTerminal task.status then
    { task with status := cancelledStatus task }
  else task

theorem cancelTasksForJob_tasks (catalog : TaskCatalog) (jobId : Nat) :
    (catalog.cancelTasksForJob jobId).1 =
      { catalog with tasks := catalog.tasks.map (cancelledRow jobId) } := rfl

@[simp] theorem cancelledRow_taskid (jobId : Nat) (task : BackgroundTask) :
    (cancelledRow jobId task).taskid = task.taskid := by
  unfold cancelledRow
  split_ifs <;> rfl

theorem activeStatus_cancelledRow {jobId : Nat} {task : BackgroundTask}
    (h : activeStatus (cancelledRow jobId task).status = true) : activeStatus task.status = true := by
  unfold cancelledRow at h
  split_ifs at h
  · unfold cancelledStatus at h
    split_ifs at h with hrunning
    · rw [hrunning.1]
      rfl
    · simp [activeStatus] at h
  · exact h

theorem executorStatus_cancelledRow {jobId : Nat} {task : BackgroundTask}
    (h : executorStatus task.status = true) : executorStatus (cancelledRow jobId task).status = true := by
  unfold cancelledRow
  split_ifs
  · unfold cancelledStatus
    split_ifs <;> rfl
  · exact h

/-- `CancelTasksForJob` only moves tasks that are not terminal to cancelling, from
running, or to cancelled. -/
theorem CatalogInvariant.cancelTasksForJob (h : CatalogInvariant catalog) (jobId : Nat) :
    CatalogInvariant (catalog.cancelTasksForJob jobId).1 ∧
      KeepsDone catalog (catalog.cancelTasksForJob jobId).1 := by
  rw [cancelTasksForJob_tasks]
  refine h.map (cancelledRow jobId) (fun task _ => cancelledRow_taskid jobId task)
    (fun task _ => ?_) (fun task _ hdone => ?_)
    (fun task hmem hactive => h.active task hmem (activeStatus_cancelledRow hactive))
  · unfold cancelledRow
    split_ifs <;> rfl
  · unfold cancelledRow
    rw [if_neg (by simp [hdone, isBackgroundTaskStatusTerminal])]

/-- The rows `ResetRunningBackgroundTasks` writes. -/
def resetRow (task : BackgroundTask) : BackgroundTask :=
  if task.status = .running then { task with status := .runnable, pid := none } else task

theorem resetRunningBackgroundTasks_tasks (catalog : TaskCatalog) :
    catalog.resetRunningBackgroundTasks = { catalog with tasks := catalog.tasks.map resetRow } := rfl

/-- `ResetRunningBackgroundTasks` makes running tasks runnable again. -/
theorem CatalogInvariant.resetRunningBackgroundTasks (h : CatalogInvariant catalog) :
    CatalogInvariant catalog.resetRunningBackgroundTasks ∧
      KeepsDone catalog catalog.resetRunningBackgroundTasks := by
  rw [resetRunningBackgroundTasks_tasks]
  refine h.map resetRow (fun task _ => ?_) (fun task _ => ?_) (fun task _ hdone => ?_)
    (fun task hmem hactive => h.active task hmem ?_)
  · unfold resetRow
    split_ifs <;> rfl
  · unfold resetRow
    split_ifs <;> rfl
  · unfold resetRow
    rw [if_neg (by rw [hdone]; decide)]
  · unfold resetRow at hactive
    split_ifs at hactive with hrunning
    · rw [hrunning]
      rfl
    · exact hactive

/-! ## Writing one task's row -/

/-- The row `UpdateBackgroundTask` leaves in place of `row`. -/
def updatedRow (task row : BackgroundTask) : BackgroundTask :=
  if row.taskid = task.taskid then task else row

theorem updateBackgroundTask_eq (catalog : TaskCatalog) (task : BackgroundTask) :
    catalog.updateBackgroundTask task =
      { catalog with tasks := catalog.tasks.map (updatedRow task) } := rfl

theorem mem_updateBackgroundTask {task row : BackgroundTask}
    (hrow : row ∈ (catalog.updateBackgroundTask task).tasks) :
    row = task ∨ row ∈ catalog.tasks ∧ row.taskid ≠ task.taskid := by
  obtain ⟨old, hold, rfl⟩ := List.mem_map.mp hrow
  split_ifs with hid
  · exact .inl rfl
  · exact .inr ⟨hold, hid⟩

theorem mem_updateBackgroundTask_of_ne {task row : BackgroundTask} (hrow : row ∈ catalog.tasks)
    (hne : row.taskid ≠ task.taskid) : row ∈ (catalog.updateBackgroundTask task).tasks := by
  have hmem : updatedRow task row ∈ catalog.tasks.map (updatedRow task) := List.mem_map_of_mem hrow
  rwa [updatedRow, if_neg hne] at hmem

theorem mem_updateBackgroundTask_self {task old : BackgroundTask} (hold : old ∈ catalog.tasks)
    (hid : old.taskid = task.taskid) : task ∈ (catalog.updateBackgroundTask task).tasks := by
  have hmem : updatedRow task old ∈ catalog.tasks.map (updatedRow task) := List.mem_map_of_mem hold
  rwa [updatedRow, if_pos hid] at hmem

/-- Writing a task's row keeps the invariant when the row it replaces is not done and
the new row may run only with its dependencies done. -/
theorem CatalogInvariant.updateBackgroundTask (h : CatalogInvariant catalog)
    {old task : BackgroundTask} (hold : old ∈ catalog.tasks) (hid : task.taskid = old.taskid)
    (hjob : task.jobid = old.jobid) (hnotDone : old.status ≠ .done)
    (hactive : activeStatus task.status = true → catalog.DependenciesDone task.taskid) :
    CatalogInvariant (catalog.updateBackgroundTask task) ∧
      KeepsDone catalog (catalog.updateBackgroundTask task) := by
  -- the only row with the task's id is the old one
  have hold_of : ∀ row ∈ catalog.tasks, row.taskid = task.taskid → row = old :=
    fun row hrow hrowId => h.eq_of_taskid_eq hrow hold (hrowId.trans hid)
  rw [updateBackgroundTask_eq]
  refine h.map (updatedRow task) (fun row hrow => ?_) (fun row hrow => ?_)
    (fun row hrow hdone => ?_) (fun row hrow hrowActive => ?_) <;> unfold updatedRow at *
  · split_ifs with hrowId
    · exact hrowId.symm
    · rfl
  · split_ifs with hrowId
    · rw [hold_of row hrow hrowId]
      exact hjob
    · rfl
  · rw [if_neg fun hrowId => hnotDone (hold_of row hrow hrowId ▸ hdone)]
  · split_ifs at hrowActive with hrowId
    · exact hrowId ▸ hactive hrowActive
    · exact h.active row hrow hrowActive

/-- The row `setTaskStatus` leaves in place of `row`. -/
def statusRow (taskId : Nat) (status : BackgroundTaskStatus) (row : BackgroundTask) : BackgroundTask :=
  if row.taskid = taskId then { row with status } else row

/-- Setting a status under which no task may run on rows that are not done keeps the
invariant. -/
theorem CatalogInvariant.setTaskStatus (h : CatalogInvariant catalog) {taskId : Nat}
    {status : BackgroundTaskStatus} (hnotDone : ∀ row ∈ catalog.tasks, row.taskid = taskId →
      row.status ≠ .done) (hstatus : activeStatus status = false) :
    CatalogInvariant (catalog.setTaskStatus taskId status) ∧
      KeepsDone catalog (catalog.setTaskStatus taskId status) := by
  change CatalogInvariant { catalog with tasks := catalog.tasks.map (statusRow taskId status) } ∧
    KeepsDone catalog { catalog with tasks := catalog.tasks.map (statusRow taskId status) }
  refine h.map (statusRow taskId status) (fun row _ => ?_) (fun row _ => ?_)
    (fun row hrow hdone => ?_) (fun row hrow hrowActive => ?_) <;> unfold statusRow at *
  · split_ifs <;> rfl
  · split_ifs <;> rfl
  · rw [if_neg fun hrowId => hnotDone row hrow hrowId hdone]
  · split_ifs at hrowActive
    · rw [hstatus] at hrowActive
      cases hrowActive
    · exact h.active row hrow hrowActive

theorem mem_setTaskStatus {taskId : Nat} {status : BackgroundTaskStatus} {row : BackgroundTask}
    (hrow : row ∈ (catalog.setTaskStatus taskId status).tasks) :
    row.taskid = taskId ∧ row.status = status ∨ row ∈ catalog.tasks ∧ row.taskid ≠ taskId := by
  obtain ⟨old, hold, rfl⟩ := List.mem_map.mp hrow
  split_ifs with hid
  · exact .inl ⟨hid, rfl⟩
  · exact .inr ⟨hold, hid⟩

theorem mem_setTaskStatus_of_ne {taskId : Nat} {status : BackgroundTaskStatus} {row : BackgroundTask}
    (hrow : row ∈ catalog.tasks) (hne : row.taskid ≠ taskId) :
    row ∈ (catalog.setTaskStatus taskId status).tasks := by
  have hmem : statusRow taskId status row ∈ catalog.tasks.map (statusRow taskId status) :=
    List.mem_map_of_mem hrow
  rwa [statusRow, if_neg hne] at hmem

/-! ## Tasks that depend on a task that is not done -/

/-- Task `b` depends directly on task `a` within job `jobId`. -/
def DependsDirectly (depends : List BackgroundTaskDepend) (jobId a b : Nat) : Prop :=
  ∃ depend ∈ depends, depend.jobId = jobId ∧ depend.dependsOn = a ∧ depend.taskId = b

theorem CatalogInvariant.lt_of_transGen (h : CatalogInvariant catalog) {jobId a b : Nat}
    (hchain : Relation.TransGen (DependsDirectly catalog.depends jobId) a b) : a < b := by
  induction hchain with
  | single hdirect =>
      obtain ⟨depend, hdep, -, rfl, rfl⟩ := hdirect
      exact (h.depends_lt depend hdep).1
  | tail _ hdirect ih =>
      obtain ⟨depend, hdep, -, rfl, rfl⟩ := hdirect
      exact ih.trans (h.depends_lt depend hdep).1

/-- A task that depends, directly or through others, on a task that is not done does
not have its dependencies done: the task it depends on in between would be done, and
so would have had its own dependencies done. -/
theorem CatalogInvariant.not_dependenciesDone_of_transGen (h : CatalogInvariant catalog)
    {jobId a b : Nat} (hnotDone : ∀ task ∈ catalog.tasks, task.taskid = a → task.status ≠ .done)
    (hchain : Relation.TransGen (DependsDirectly catalog.depends jobId) a b) :
    ¬ catalog.DependenciesDone b := by
  induction hchain with
  | single hdirect =>
      obtain ⟨depend, hdep, -, hon, hid⟩ := hdirect
      intro hdone
      obtain ⟨task, htask, htaskId, hstatus⟩ := hdone depend hdep hid
      exact hnotDone task htask (htaskId.trans hon) hstatus
  | tail _ hdirect ih =>
      obtain ⟨depend, hdep, -, hon, hid⟩ := hdirect
      intro hdone
      obtain ⟨task, htask, htaskId, hstatus⟩ := hdone depend hdep hid
      have hactive : activeStatus task.status = true := by
        rw [hstatus]
        rfl
      exact ih (htaskId.trans hon ▸ h.active task htask hactive)

/-- Such a task is not done either. -/
theorem CatalogInvariant.not_done_of_transGen (h : CatalogInvariant catalog)
    {jobId a b : Nat} (hnotDone : ∀ task ∈ catalog.tasks, task.taskid = a → task.status ≠ .done)
    (hchain : Relation.TransGen (DependsDirectly catalog.depends jobId) a b) :
    ∀ task ∈ catalog.tasks, task.taskid = b → task.status ≠ .done := by
  intro task htask hid hdone
  have hactive : activeStatus task.status = true := by
    rw [hdone]
    rfl
  exact h.not_dependenciesDone_of_transGen hnotDone hchain (hid ▸ h.active task htask hactive)

/-! ## Unblocking and unscheduling the dependants of an ended task -/

/-- One dependency row of `UnblockDependingBackgroundTasks`'s loop. -/
def unblockStep (task : BackgroundTask) (catalog : TaskCatalog) (depend : BackgroundTaskDepend) :
    TaskCatalog :=
  if catalog.backgroundTaskHasUmnetDependencies task.jobid depend.taskId then catalog
  else
    match catalog.getBackgroundTaskByTaskId depend.taskId with
    | some unblockedTask =>
        if unblockedTask.status = .cancelled then catalog
        else catalog.updateBackgroundTask { unblockedTask with status := .runnable }
    | none => catalog

theorem unblockDependingBackgroundTasks_eq (catalog : TaskCatalog) (task : BackgroundTask) :
    catalog.unblockDependingBackgroundTasks task =
      (catalog.depends.filter fun depend =>
        depend.jobId == task.jobid && depend.dependsOn == task.taskid).foldl
        (unblockStep task) catalog := rfl

/-- One step of the loop leaves the catalog as it is, or makes the dependant's row
runnable when none of its dependencies is unmet. -/
theorem unblockStep_cases (task : BackgroundTask) (catalog : TaskCatalog)
    (depend : BackgroundTaskDepend) :
    unblockStep task catalog depend = catalog ∨
      ∃ unblockedTask ∈ catalog.tasks, unblockedTask.taskid = depend.taskId ∧
        catalog.backgroundTaskHasUmnetDependencies task.jobid depend.taskId = false ∧
        unblockStep task catalog depend =
          catalog.updateBackgroundTask { unblockedTask with status := .runnable } := by
  unfold unblockStep
  split
  · exact .inl rfl
  · rename_i hmet
    split
    · rename_i unblockedTask hget
      obtain ⟨hmem, hid⟩ := getBackgroundTaskByTaskId_eq_some hget
      split
      · exact .inl rfl
      · exact .inr ⟨unblockedTask, hmem, hid, eq_false_of_ne_true hmet, rfl⟩
    · exact .inl rfl

/-- What holds while the dependants of an ended task are updated, relative to the catalog
before its row was written: the rows the loop may touch (the task's `Dependant`s) are
not done, and every other row but the task's is as it was. -/
structure DependantsInvariant (catalog : TaskCatalog) (task : BackgroundTask)
    (Dependant : Nat → Prop) (catalog' : TaskCatalog) : Prop where
  invariant : CatalogInvariant catalog'
  keepsDone : KeepsDone catalog catalog'
  depends_eq : catalog'.depends = catalog.depends
  others : ∀ row ∈ catalog.tasks, ¬ Dependant row.taskid → row.taskid ≠ task.taskid →
    row ∈ catalog'.tasks
  dependants_not_done : ∀ row ∈ catalog'.tasks, Dependant row.taskid → row.status ≠ .done

section Dependants

variable {old task : BackgroundTask} {Dependant : Nat → Prop}

/-- Right after the row of a task that was not done is written, every task that depends
on it, directly or through others, is not done. -/
theorem DependantsInvariant.updateBackgroundTask (h : CatalogInvariant catalog)
    (hold : old ∈ catalog.tasks) (hid : task.taskid = old.taskid) (hjob : task.jobid = old.jobid)
    (hnotDone : old.status ≠ .done) (hdone : catalog.DependenciesDone task.taskid)
    (hdependant : ∀ taskId, Dependant taskId →
      Relation.TransGen (DependsDirectly catalog.depends task.jobid) task.taskid taskId) :
    DependantsInvariant catalog task Dependant (catalog.updateBackgroundTask task) := by
  obtain ⟨hinv, hkeep⟩ := h.updateBackgroundTask hold hid hjob hnotDone fun _ => hdone
  refine ⟨hinv, hkeep, rfl, fun row hrow _ hne => mem_updateBackgroundTask_of_ne hrow hne, ?_⟩
  intro row hrow hrowDependant
  have hchain := hdependant row.taskid hrowDependant
  rcases mem_updateBackgroundTask hrow with rfl | ⟨hrow, -⟩
  · exact absurd (h.lt_of_transGen hchain) (lt_irrefl _)
  · refine h.not_done_of_transGen (fun row' hrow' hrowId => ?_) hchain row hrow rfl
    rwa [h.eq_of_taskid_eq hrow' hold (hrowId.trans hid)]

/-- The row of a task with its dependencies done is never one the loop touches. -/
theorem DependantsInvariant.others_of_dependenciesDone (h : CatalogInvariant catalog)
    (hstate : DependantsInvariant catalog task Dependant catalog') (hold : old ∈ catalog.tasks)
    (hid : task.taskid = old.taskid) (hnotDone : old.status ≠ .done)
    (hdependant : ∀ taskId, Dependant taskId →
      Relation.TransGen (DependsDirectly catalog.depends task.jobid) task.taskid taskId) :
    ∀ row ∈ catalog.tasks, catalog.DependenciesDone row.taskid → row.taskid ≠ task.taskid →
      row ∈ catalog'.tasks := by
  intro row hrow hdone hne
  refine hstate.others row hrow (fun hrowDependant => ?_) hne
  refine h.not_dependenciesDone_of_transGen (fun row' hrow' hrowId => ?_)
    (hdependant row.taskid hrowDependant) hdone
  rwa [h.eq_of_taskid_eq hrow' hold (hrowId.trans hid)]

/-- A step of `UnblockDependingBackgroundTasks`'s loop on a row that depends on the task
keeps the invariant: the row it makes runnable depends directly on the task, and it has
no unmet dependency. -/
theorem DependantsInvariant.unblockStep
    (h : DependantsInvariant catalog task (DependsDirectly catalog.depends task.jobid task.taskid)
      catalog')
    {depend : BackgroundTaskDepend} (hdep : depend ∈ catalog.depends)
    (hjob : depend.jobId = task.jobid) (hon : depend.dependsOn = task.taskid) :
    DependantsInvariant catalog task (DependsDirectly catalog.depends task.jobid task.taskid)
      (unblockStep task catalog' depend) := by
  rcases unblockStep_cases task catalog' depend with hsame | ⟨unblockedTask, hmem, hid, hmet, hstep⟩
  · rwa [hsame]
  rw [hstep]
  have hdirect : DependsDirectly catalog.depends task.jobid task.taskid unblockedTask.taskid :=
    ⟨depend, hdep, hjob, hon, hid.symm⟩
  have hjobid : unblockedTask.jobid = task.jobid :=
    (h.invariant.depends_job depend (h.depends_eq ▸ hdep) unblockedTask hmem hid).trans hjob
  have hready : catalog'.DependenciesDone unblockedTask.taskid := by
    refine dependenciesDone_of_hasUmnetDependencies h.invariant hmem ?_
    rwa [hjobid, hid]
  have hwrite :
      CatalogInvariant (catalog'.updateBackgroundTask { unblockedTask with status := .runnable }) ∧
        KeepsDone catalog' (catalog'.updateBackgroundTask { unblockedTask with status := .runnable }) :=
    h.invariant.updateBackgroundTask hmem rfl rfl (h.dependants_not_done unblockedTask hmem hdirect)
      fun _ => hready
  obtain ⟨hinv, hkeep⟩ := hwrite
  refine ⟨hinv, h.keepsDone.trans hkeep, h.depends_eq, fun row hrow hrowDependant hne => ?_, ?_⟩
  · refine mem_updateBackgroundTask_of_ne (h.others row hrow hrowDependant hne) fun hrowId => ?_
    exact hrowDependant (hrowId ▸ hdirect)
  · intro row hrow hrowDependant
    rcases mem_updateBackgroundTask hrow with rfl | ⟨hrow, -⟩
    · simp
    · exact h.dependants_not_done row hrow hrowDependant

/-- `UnblockDependingBackgroundTasks` after the task's row is written touches only the
tasks that depend directly on it. -/
theorem DependantsInvariant.unblockDependingBackgroundTasks (h : CatalogInvariant catalog)
    (hold : old ∈ catalog.tasks) (hid : task.taskid = old.taskid) (hjob : task.jobid = old.jobid)
    (hnotDone : old.status ≠ .done) (hdone : catalog.DependenciesDone task.taskid) :
    DependantsInvariant catalog task (DependsDirectly catalog.depends task.jobid task.taskid)
      ((catalog.updateBackgroundTask task).unblockDependingBackgroundTasks task) := by
  rw [unblockDependingBackgroundTasks_eq]
  refine EventRun.foldl_invariant _
    (updateBackgroundTask h hold hid hjob hnotDone hdone fun _ => .single) ?_
  intro catalog' depend hdep hstate
  simp only [List.mem_filter, Bool.and_eq_true, beq_iff_eq] at hdep
  exact hstate.unblockStep hdep.1 hdep.2.1 hdep.2.2

/-- A step of `UnscheduleDependentTasks`'s stack loop keeps the invariant, with every task
on the stack a task that depends on the ended one, directly or through others. -/
theorem DependantsInvariant.unscheduleStep {state : TaskCatalog × List Nat}
    (h : DependantsInvariant catalog task
      (Relation.TransGen (DependsDirectly catalog.depends task.jobid) task.taskid) state.1)
    (hstack : ∀ taskId ∈ state.2,
      Relation.TransGen (DependsDirectly catalog.depends task.jobid) task.taskid taskId)
    {taskId : Nat} {rest : TaskCatalog × List Nat} (hpop : popLast state = some (taskId, rest)) :
    DependantsInvariant catalog task
      (Relation.TransGen (DependsDirectly catalog.depends task.jobid) task.taskid)
      (unscheduleStep task.jobid taskId rest).1 ∧
    ∀ taskId' ∈ (unscheduleStep task.jobid taskId rest).2,
      Relation.TransGen (DependsDirectly catalog.depends task.jobid) task.taskid taskId' := by
  obtain ⟨taskId', hlast, hpair⟩ := Option.map_eq_some_iff.mp hpop
  cases hpair
  have hchain := hstack taskId (List.mem_of_getLast? hlast)
  have hwrite : CatalogInvariant (state.1.setTaskStatus taskId .unscheduled) ∧
      KeepsDone state.1 (state.1.setTaskStatus taskId .unscheduled) :=
    h.invariant.setTaskStatus (fun row hrow hrowId => h.dependants_not_done row hrow (hrowId ▸ hchain))
      rfl
  obtain ⟨hinv, hkeep⟩ := hwrite
  refine ⟨⟨hinv, h.keepsDone.trans hkeep, h.depends_eq, fun row hrow hrowDependant hne => ?_, ?_⟩, ?_⟩
  · refine mem_setTaskStatus_of_ne (h.others row hrow hrowDependant hne) fun hrowId => ?_
    exact hrowDependant (hrowId ▸ hchain)
  · intro row hrow hrowDependant
    rcases mem_setTaskStatus hrow with ⟨-, hstatus⟩ | ⟨hrow, -⟩
    · simp [hstatus]
    · exact h.dependants_not_done row hrow hrowDependant
  · intro taskId' hmem
    rcases List.mem_append.mp hmem with hmem | hmem
    · exact hstack taskId' (List.mem_of_mem_dropLast hmem)
    · -- a task pushed depends directly on the one popped
      obtain ⟨depend, hdep, rfl⟩ := List.mem_map.mp hmem
      simp only [List.mem_filter, Bool.and_eq_true, beq_iff_eq] at hdep
      exact hchain.tail ⟨depend, h.depends_eq ▸ hdep.1, hdep.2.1, hdep.2.2, rfl⟩

/-- `UnscheduleDependentTasks` after the task's row is written touches only the tasks
that depend on it, directly or through others. -/
theorem DependantsInvariant.unscheduleDependentTasks (h : CatalogInvariant catalog)
    (hold : old ∈ catalog.tasks) (hid : task.taskid = old.taskid) (hjob : task.jobid = old.jobid)
    (hnotDone : old.status ≠ .done) (hdone : catalog.DependenciesDone task.taskid) :
    DependantsInvariant catalog task
      (Relation.TransGen (DependsDirectly catalog.depends task.jobid) task.taskid)
      ((catalog.updateBackgroundTask task).unscheduleDependentTasks task) := by
  let Inv := fun state : TaskCatalog × List Nat =>
    DependantsInvariant catalog task
      (Relation.TransGen (DependsDirectly catalog.depends task.jobid) task.taskid) state.1 ∧
    ∀ taskId ∈ state.2,
      Relation.TransGen (DependsDirectly catalog.depends task.jobid) task.taskid taskId
  have hinit : Inv (catalog.updateBackgroundTask task,
      (catalog.updateBackgroundTask task).getDependantTasks task.jobid task.taskid) := by
    refine ⟨updateBackgroundTask h hold hid hjob hnotDone hdone fun _ => id, ?_⟩
    intro taskId hmem
    obtain ⟨depend, hdep, rfl⟩ := List.mem_map.mp hmem
    simp only [List.mem_filter, Bool.and_eq_true, beq_iff_eq] at hdep
    exact .single ⟨depend, hdep.1, hdep.2.1, hdep.2.2, rfl⟩
  exact (Worklist.drain_invariant Inv (fun state taskId rest hstate hpop =>
    hstate.1.unscheduleStep hstate.2 hpop) _ _ hinit).1

/-- Writing the row of a task that was not done, with its dependencies done, and then
`UpdateDependingTasks` keeps the invariant and every done row, and leaves every other row
whose dependencies were done as it was. -/
theorem CatalogInvariant.updateDependingTasks (h : CatalogInvariant catalog)
    (hold : old ∈ catalog.tasks) (hid : task.taskid = old.taskid) (hjob : task.jobid = old.jobid)
    (hnotDone : old.status ≠ .done) (hdone : catalog.DependenciesDone task.taskid) :
    CatalogInvariant ((catalog.updateBackgroundTask task).updateDependingTasks task) ∧
      KeepsDone catalog ((catalog.updateBackgroundTask task).updateDependingTasks task) ∧
      ((catalog.updateBackgroundTask task).updateDependingTasks task).depends = catalog.depends ∧
      ∀ row ∈ catalog.tasks, catalog.DependenciesDone row.taskid → row.taskid ≠ task.taskid →
        row ∈ ((catalog.updateBackgroundTask task).updateDependingTasks task).tasks := by
  -- each branch rewrites only tasks that depend on the ended one
  have hfinish : ∀ {Dependant : Nat → Prop} {catalog' : TaskCatalog},
      (∀ taskId, Dependant taskId →
        Relation.TransGen (DependsDirectly catalog.depends task.jobid) task.taskid taskId) →
      DependantsInvariant catalog task Dependant catalog' →
      CatalogInvariant catalog' ∧ KeepsDone catalog catalog' ∧ catalog'.depends = catalog.depends ∧
        ∀ row ∈ catalog.tasks, catalog.DependenciesDone row.taskid → row.taskid ≠ task.taskid →
          row ∈ catalog'.tasks :=
    fun hdependant hstate => ⟨hstate.invariant, hstate.keepsDone, hstate.depends_eq,
      hstate.others_of_dependenciesDone h hold hid hnotDone hdependant⟩
  unfold TaskCatalog.updateDependingTasks
  split
  · exact hfinish (fun _ => .single)
      (DependantsInvariant.unblockDependingBackgroundTasks h hold hid hjob hnotDone hdone)
  · exact hfinish (fun _ => id)
      (DependantsInvariant.unscheduleDependentTasks h hold hid hjob hnotDone hdone)
  · exact hfinish (fun _ => id)
      (DependantsInvariant.updateBackgroundTask h hold hid hjob hnotDone hdone fun _ => id)

end Dependants

end TaskCatalog

/-! ## The queue -/

theorem ne_done_of_executorStatus {status : BackgroundTaskStatus}
    (h : executorStatus status = true) : status ≠ .done := by
  rintro rfl
  cases h

open TaskCatalog

/-- The task an executor holds: its row is there under a status an executor holds, and
its dependencies are done. -/
def HoldsTask (catalog : TaskCatalog) (taskId : Nat) : Prop :=
  (∃ task ∈ catalog.tasks, task.taskid = taskId ∧ executorStatus task.status = true) ∧
    catalog.DependenciesDone taskId

/-- What every queue the monitor and the other backends reach keeps: the catalog's
invariant, and every executor holding its own task. -/
structure QueueInvariant (queue : TaskQueue) : Prop where
  catalog : CatalogInvariant queue.catalog
  executors : ∀ entry ∈ queue.monitor.currentExecutors, HoldsTask queue.catalog entry.taskid
  executors_nodup : (queue.monitor.currentExecutors.map (·.taskid)).Nodup

section Queue

variable {config : QueueMonitorConfig} {queue : TaskQueue} {catalog catalog' : TaskCatalog}

theorem HoldsTask.executorStatus {taskId : Nat} (h : CatalogInvariant catalog)
    (hheld : HoldsTask catalog taskId) {row : BackgroundTask} (hrow : row ∈ catalog.tasks)
    (hid : row.taskid = taskId) : executorStatus row.status = true := by
  obtain ⟨⟨task, htask, htaskId, hstatus⟩, -⟩ := hheld
  rwa [h.eq_of_taskid_eq hrow htask (hid.trans htaskId.symm)]

/-- An executor keeps holding its task while its row stays and done rows stay. -/
theorem HoldsTask.of_mem {taskId : Nat} (hheld : HoldsTask catalog taskId)
    (hrows : ∀ row ∈ catalog.tasks, row.taskid = taskId → row ∈ catalog'.tasks)
    (hkeep : KeepsDone catalog catalog') (hdepends : catalog'.depends = catalog.depends) :
    HoldsTask catalog' taskId := by
  obtain ⟨⟨row, hrow, hrowId, hstatus⟩, hdone⟩ := hheld
  exact ⟨⟨row, hrows row hrow hrowId, hrowId, hstatus⟩, hdone.of_keepsDone hkeep hdepends⟩

theorem QueueInvariant.initial : QueueInvariant TaskQueue.initial := by
  refine ⟨⟨?_, List.nodup_nil, ?_, ?_, ?_⟩, ?_, List.nodup_nil⟩ <;> simp [TaskQueue.initial, empty, QueueMonitor.initial]

/-! ### Assigning tasks -/

/-- The task `GetRunnableBackgroundTask` selects is a runnable row with no unmet
dependency. -/
theorem getRunnableBackgroundTask_eq_some {task : BackgroundTask} {counters : Nat → UInt32}
    (h : getRunnableBackgroundTask config queue = some (task, counters)) :
    task ∈ queue.catalog.tasks ∧ task.status = .runnable ∧
      queue.catalog.backgroundTaskHasUmnetDependencies task.jobid task.taskid = false := by
  obtain ⟨candidate, hmem, hsome⟩ := List.exists_of_findSome?_eq_some h
  rw [List.mem_filter, decide_eq_true_iff] at hmem
  split at hsome
  · rename_i hready
    obtain ⟨counters', -, hpair⟩ := Option.map_eq_some_iff.mp hsome
    cases hpair
    simp only [backgroundTaskReadyToRun, Bool.and_eq_true, Bool.not_eq_true'] at hready
    exact ⟨hmem.1, hmem.2, hready.2⟩
  · cases hsome

/-- Starting an executor for a runnable task whose dependencies are done keeps the
invariant: no executor held the task, and its row becomes running. -/
theorem QueueInvariant.startExecutor (h : QueueInvariant queue) {task : BackgroundTask}
    (hmem : task ∈ queue.catalog.tasks) (hrunnable : task.status = .runnable)
    (hready : queue.catalog.DependenciesDone task.taskid) :
    QueueInvariant (startExecutor queue task) ∧
      KeepsDone queue.catalog (startExecutor queue task).catalog := by
  have hwrite :
      CatalogInvariant (queue.catalog.updateBackgroundTask { task with status := .running }) ∧
        KeepsDone queue.catalog (queue.catalog.updateBackgroundTask { task with status := .running }) :=
    h.catalog.updateBackgroundTask hmem rfl rfl (by simp [hrunnable]) fun _ => hready
  obtain ⟨hinv, hkeep⟩ := hwrite
  -- an executor's row is never runnable
  have hfree : ∀ entry ∈ queue.monitor.currentExecutors, entry.taskid ≠ task.taskid := by
    intro entry hentry hid
    have hstatus := (h.executors entry hentry).executorStatus h.catalog hmem hid.symm
    simp [hrunnable, executorStatus] at hstatus
  refine ⟨⟨hinv, fun entry hentry => ?_, ?_⟩, hkeep⟩
  · rcases List.mem_append.mp hentry with hentry | hentry
    · refine (h.executors entry hentry).of_mem (fun row hrow hrowId => ?_) hkeep rfl
      exact mem_updateBackgroundTask_of_ne hrow fun hid => hfree entry hentry (hrowId.symm.trans hid)
    · rw [List.mem_singleton] at hentry
      subst hentry
      exact ⟨⟨_, mem_updateBackgroundTask_self hmem rfl, rfl, rfl⟩, hready.of_keepsDone hkeep rfl⟩
  · change ((queue.monitor.currentExecutors ++
      [(⟨task.taskid, task.jobid, _⟩ : BackgroundExecutorHashEntry)]).map (·.taskid)).Nodup
    exact ListUpdate.nodup_map_append_singleton h.executors_nodup hfree

/-- The loop of `AssignRunnableTasks` keeps the invariant, one started executor at a
time. -/
theorem QueueInvariant.assignRunnableTasksLoop (config : QueueMonitorConfig) (freeWorkerSlots : Nat)
    (h : QueueInvariant queue) :
    QueueInvariant (assignRunnableTasksLoop config freeWorkerSlots queue) ∧
      KeepsDone queue.catalog (assignRunnableTasksLoop config freeWorkerSlots queue).catalog := by
  induction freeWorkerSlots generalizing queue with
  | zero =>
      unfold Citus.Background.assignRunnableTasksLoop
      split
      · exact ⟨h, .refl _⟩
      · dsimp only
        split <;> exact ⟨⟨h.catalog, h.executors, h.executors_nodup⟩, .refl _⟩
  | succ freeWorkerSlots ih =>
      unfold Citus.Background.assignRunnableTasksLoop
      dsimp only
      split
      · exact ⟨h, .refl _⟩
      · rename_i task counters hget
        obtain ⟨hmem, hrunnable, hmet⟩ := getRunnableBackgroundTask_eq_some hget
        -- raising the counters leaves the catalog and the executors
        have hraised : QueueInvariant
            { queue with monitor := { queue.monitor with parallelTasksPerNode := counters } } :=
          ⟨h.catalog, h.executors, h.executors_nodup⟩
        split
        · exact ⟨hraised, .refl _⟩
        · obtain ⟨hstart, hkeep⟩ := hraised.startExecutor hmem hrunnable
            (dependenciesDone_of_hasUmnetDependencies h.catalog hmem hmet)
          obtain ⟨hloop, hkeep'⟩ := ih hstart
          exact ⟨hloop, hkeep.trans hkeep'⟩

/-! ### Checking executors -/

/-- Writing the row of a task an executor holds, under a status an executor holds,
keeps the invariant. -/
theorem QueueInvariant.updateBackgroundTask (h : QueueInvariant queue) {old task : BackgroundTask}
    (hold : old ∈ queue.catalog.tasks) (hheld : HoldsTask queue.catalog old.taskid)
    (hid : task.taskid = old.taskid) (hjob : task.jobid = old.jobid)
    (hstatus : executorStatus task.status = true) :
    QueueInvariant { queue with catalog := queue.catalog.updateBackgroundTask task } ∧
      KeepsDone queue.catalog (queue.catalog.updateBackgroundTask task) := by
  obtain ⟨hinv, hkeep⟩ := h.catalog.updateBackgroundTask hold hid hjob
    (ne_done_of_executorStatus (hheld.executorStatus h.catalog hold rfl)) fun _ => hid ▸ hheld.2
  refine ⟨⟨hinv, fun entry hentry => ?_, h.executors_nodup⟩, hkeep⟩
  obtain ⟨⟨row, hrow, hrowId, hrowStatus⟩, hdone⟩ := h.executors entry hentry
  refine ⟨?_, hdone.of_keepsDone hkeep rfl⟩
  by_cases hsame : row.taskid = task.taskid
  · exact ⟨task, mem_updateBackgroundTask_self hold hid.symm, hsame.symm.trans hrowId, hstatus⟩
  · exact ⟨row, mem_updateBackgroundTask_of_ne hrow hsame, hrowId, hrowStatus⟩

/-- `TaskEnded` on the task an executor holds keeps the invariant, whatever status it
writes, and removes no other executor. -/
theorem QueueInvariant.taskEnded (h : QueueInvariant queue) {old task : BackgroundTask}
    (hold : old ∈ queue.catalog.tasks) (hheld : HoldsTask queue.catalog old.taskid)
    (hid : task.taskid = old.taskid) (hjob : task.jobid = old.jobid) :
    QueueInvariant (taskEnded queue task) ∧ KeepsDone queue.catalog (taskEnded queue task).catalog ∧
      ∀ entry ∈ queue.monitor.currentExecutors, entry.taskid ≠ old.taskid →
        entry ∈ (taskEnded queue task).monitor.currentExecutors := by
  have hended : ({ task with pid := none } : BackgroundTask).taskid = old.taskid := hid
  obtain ⟨hinv, hkeep, hdepends, hothers⟩ := h.catalog.updateDependingTasks hold hended hjob
    (ne_done_of_executorStatus (hheld.executorStatus h.catalog hold rfl)) (hid ▸ hheld.2)
  refine ⟨⟨hinv, fun entry hentry => ?_, ?_⟩, hkeep, fun entry hentry hne => ?_⟩
  · obtain ⟨hentry, hne⟩ := List.mem_filter.mp hentry
    rw [decide_eq_true_iff] at hne
    obtain ⟨⟨row, hrow, hrowId, hstatus⟩, hdone⟩ := h.executors entry hentry
    exact ⟨⟨row, hothers row hrow (hrowId ▸ hdone) (hrowId ▸ hne), hrowId, hstatus⟩,
      hdone.of_keepsDone hkeep hdepends⟩
  · exact h.executors_nodup.sublist (List.filter_sublist.map _)
  · exact List.mem_filter.mpr ⟨hentry, decide_eq_true fun hsame => hne (hsame.trans hid)⟩

/-- `TaskHadError` writes the row back with the same task id and job. -/
theorem QueueInvariant.taskHadError (h : QueueInvariant queue) {task : BackgroundTask}
    (hmem : task ∈ queue.catalog.tasks) (hheld : HoldsTask queue.catalog task.taskid) :
    QueueInvariant (taskHadError queue task) ∧
      KeepsDone queue.catalog (taskHadError queue task).catalog ∧
      ∀ entry ∈ queue.monitor.currentExecutors, entry.taskid ≠ task.taskid →
        entry ∈ (taskHadError queue task).monitor.currentExecutors := by
  unfold Citus.Background.taskHadError
  dsimp only
  refine h.taskEnded hmem hheld ?_ ?_ <;> split_ifs <;> rfl

/-- `TaskConcurrentCancelCheck` and `ConsumeExecutorQueue` for one of the monitor's
executors keep the invariant and remove no other executor. -/
theorem QueueInvariant.monitorExecutor (h : QueueInvariant queue)
    (results : Nat → ExecutorQueueResult) {entry : BackgroundExecutorHashEntry}
    (hentry : entry ∈ queue.monitor.currentExecutors) :
    QueueInvariant (monitorExecutor results queue entry) ∧
      KeepsDone queue.catalog (monitorExecutor results queue entry).catalog ∧
      ∀ entry' ∈ queue.monitor.currentExecutors, entry'.taskid ≠ entry.taskid →
        entry' ∈ (monitorExecutor results queue entry).monitor.currentExecutors := by
  unfold Citus.Background.monitorExecutor
  split
  · exact ⟨h, .refl _, fun _ hentry' _ => hentry'⟩
  rename_i task hget
  obtain ⟨hmem, hid⟩ := getBackgroundTaskByTaskId_eq_some hget
  have hheld : HoldsTask queue.catalog task.taskid := hid ▸ h.executors entry hentry
  split
  · exact hid ▸ h.taskEnded hmem hheld rfl rfl
  -- the row is written back as running with the executor's pid first
  dsimp only
  set running : BackgroundTask := { task with status := .running, pid := some entry.pid }
  have hwrite : QueueInvariant { queue with catalog := queue.catalog.updateBackgroundTask running } ∧
      KeepsDone queue.catalog (queue.catalog.updateBackgroundTask running) :=
    h.updateBackgroundTask hmem hheld rfl rfl rfl
  obtain ⟨hrunning, hkeep⟩ := hwrite
  have hmem' : running ∈ (queue.catalog.updateBackgroundTask running).tasks :=
    mem_updateBackgroundTask_self hmem rfl
  have hheld' : HoldsTask (queue.catalog.updateBackgroundTask running) running.taskid :=
    hid ▸ hrunning.executors entry hentry
  split
  · obtain ⟨hended, hkeep', hothers⟩ := hrunning.taskHadError hmem' hheld'
    exact ⟨hended, hkeep.trans hkeep', fun entry' hentry' hne => hothers entry' hentry' (hid ▸ hne)⟩
  · obtain ⟨hended, hkeep', hothers⟩ := hrunning.taskEnded hmem' hheld'
      (rfl : ({ running with status := .done } : BackgroundTask).taskid = running.taskid) rfl
    exact ⟨hended, hkeep.trans hkeep', fun entry' hentry' hne => hothers entry' hentry' (hid ▸ hne)⟩
  · exact ⟨hrunning, hkeep, fun _ hentry' _ => hentry'⟩

/-- The monitor's transaction over its executors keeps the invariant: each executor it
checks is still one of the monitor's when its turn comes, since checking another removes
only that one. -/
theorem QueueInvariant.foldl_monitorExecutor (results : Nat → ExecutorQueueResult) :
    ∀ (entries : List BackgroundExecutorHashEntry) {queue : TaskQueue}, QueueInvariant queue →
      (entries.map (·.taskid)).Nodup → (∀ entry ∈ entries, entry ∈ queue.monitor.currentExecutors) →
      QueueInvariant (entries.foldl (Background.monitorExecutor results) queue) ∧
        KeepsDone queue.catalog (entries.foldl (Background.monitorExecutor results) queue).catalog
  | [], _, h, _, _ => ⟨h, .refl _⟩
  | entry :: entries, queue, h, hnodup, hmem => by
      rw [List.map_cons, List.nodup_cons] at hnodup
      obtain ⟨hchecked, hkeep, hothers⟩ := h.monitorExecutor results (hmem entry List.mem_cons_self)
      have hrest : ∀ entry' ∈ entries,
          entry' ∈ (Background.monitorExecutor results queue entry).monitor.currentExecutors :=
        fun entry' hentry' => hothers entry' (hmem entry' (List.mem_cons_of_mem _ hentry'))
          fun hid => hnodup.1 (List.mem_map.mpr ⟨entry', hentry', hid⟩)
      obtain ⟨hrun, hkeep'⟩ := foldl_monitorExecutor results entries hchecked hnodup.2 hrest
      exact ⟨hrun, hkeep.trans hkeep'⟩

/-! ### Every event -/

/-- Every enabled event keeps the invariant and every done row. -/
theorem QueueInvariant.taskQueueStep (h : QueueInvariant queue) {event : TaskQueueEvent}
    {queue' : TaskQueue} (hstep : taskQueueStep config queue event = some queue') :
    QueueInvariant queue' ∧ KeepsDone queue.catalog queue'.catalog := by
  cases event with
  | createBackgroundJob =>
      cases hstep
      exact ⟨⟨⟨h.catalog.ids_lt, h.catalog.ids_nodup, h.catalog.depends_lt, h.catalog.depends_job,
        h.catalog.active⟩, h.executors, h.executors_nodup⟩, .refl _⟩
  | scheduleBackgroundTask jobId dependingTaskIds nodesInvolved =>
      simp only [Background.taskQueueStep] at hstep
      split at hstep
      · rename_i catalog taskId hok
        cases hstep
        obtain ⟨hinv, hkeep, hmem, hdone⟩ := h.catalog.scheduleBackgroundTask hok
        refine ⟨⟨hinv, fun entry hentry => ?_, h.executors_nodup⟩, hkeep⟩
        obtain ⟨⟨row, hrow, hrowId, hstatus⟩, hrowDone⟩ := h.executors entry hentry
        exact ⟨⟨row, hmem row hrow, hrowId, hstatus⟩, hrowId ▸ hdone row hrow (hrowId ▸ hrowDone)⟩
      · cases hstep
  | cancelJob jobId =>
      cases hstep
      obtain ⟨hinv, hkeep⟩ := h.catalog.cancelTasksForJob jobId
      refine ⟨⟨hinv, fun entry hentry => ?_, h.executors_nodup⟩, hkeep⟩
      -- the executor's row may become cancelling or cancelled
      obtain ⟨⟨row, hrow, hrowId, hstatus⟩, hrowDone⟩ := h.executors entry hentry
      exact ⟨⟨cancelledRow jobId row, List.mem_map_of_mem hrow, by rw [cancelledRow_taskid, hrowId],
        executorStatus_cancelledRow hstatus⟩, hrowDone.of_keepsDone hkeep rfl⟩
  | startMonitor =>
      simp only [Background.taskQueueStep] at hstep
      split at hstep
      · cases hstep
        obtain ⟨hinv, hkeep⟩ := h.catalog.resetRunningBackgroundTasks
        exact ⟨⟨hinv, (fun _ hentry => by cases hentry), List.nodup_nil⟩, hkeep⟩
      · cases hstep
  | assignRunnableTasks freeWorkerSlots =>
      simp only [Background.taskQueueStep] at hstep
      split at hstep
      · cases hstep
        obtain ⟨hloop, hkeep⟩ := QueueInvariant.assignRunnableTasksLoop config freeWorkerSlots h
        exact ⟨⟨hloop.catalog, hloop.executors, hloop.executors_nodup⟩, hkeep⟩
      · cases hstep
  | monitorExecutors results =>
      simp only [Background.taskQueueStep] at hstep
      split at hstep
      · cases hstep
        obtain ⟨hrun, hkeep⟩ := QueueInvariant.foldl_monitorExecutor results
          queue.monitor.currentExecutors h h.executors_nodup fun _ hentry => hentry
        exact ⟨⟨hrun.catalog, hrun.executors, hrun.executors_nodup⟩, hkeep⟩
      · cases hstep
  | tick elapsedMs =>
      cases hstep
      exact ⟨⟨h.catalog, h.executors, h.executors_nodup⟩, .refl _⟩

theorem QueueInvariant.of_reachable
    (h : EventRun.Reachable (Background.taskQueueStep config) TaskQueue.initial queue) :
    QueueInvariant queue :=
  h.invariant QueueInvariant QueueInvariant.initial fun _ _ _ hinv hstep =>
    (hinv.taskQueueStep hstep).1

end Queue

/-- Over every run of the queue, every task that is runnable, running, cancelling or
done, and every task one of the monitor's executors holds, has every task it depends on
done. -/
theorem taskQueue_dependencies_done (config : QueueMonitorConfig) {queue : TaskQueue}
    (h : EventRun.Reachable (taskQueueStep config) TaskQueue.initial queue) :
    (∀ task ∈ queue.catalog.tasks, activeStatus task.status = true →
      queue.catalog.DependenciesDone task.taskid) ∧
    ∀ entry ∈ queue.monitor.currentExecutors, queue.catalog.DependenciesDone entry.taskid := by
  have hinv := QueueInvariant.of_reachable h
  exact ⟨hinv.catalog.active, fun entry hentry => (hinv.executors entry hentry).2⟩

/-- Task `2` of job `1` depends on task `1`. Task `1` runs and finishes, which unblocks
task `2`, and the monitor starts it. -/
def dependencyChainEvents : List TaskQueueEvent :=
  [.createBackgroundJob, .scheduleBackgroundTask 1 [] [1], .scheduleBackgroundTask 1 [1] [2],
    .startMonitor, .assignRunnableTasks 2, .monitorExecutors fun _ => .detached,
    .assignRunnableTasks 2]

theorem taskQueue_dependencies_done_chain :
    ∃ queue, dependencyChainEvents.foldlM (taskQueueStep defaultConfig) TaskQueue.initial = some queue ∧
      (∀ task ∈ queue.catalog.tasks, activeStatus task.status = true →
        queue.catalog.DependenciesDone task.taskid) ∧
      ∀ entry ∈ queue.monitor.currentExecutors, queue.catalog.DependenciesDone entry.taskid := by
  obtain ⟨queue, hrun⟩ := Option.isSome_iff_exists.mp (by decide +kernel :
    (dependencyChainEvents.foldlM (taskQueueStep defaultConfig) TaskQueue.initial).isSome)
  exact ⟨queue, hrun, taskQueue_dependencies_done defaultConfig (EventRun.reachable_of_foldlM hrun)⟩

/-- Over every run of the queue, no event rewrites or removes the row of a done task. -/
theorem taskQueueStep_keeps_done_rows (config : QueueMonitorConfig) {queue queue' : TaskQueue}
    {event : TaskQueueEvent} (h : EventRun.Reachable (taskQueueStep config) TaskQueue.initial queue)
    (hstep : taskQueueStep config queue event = some queue') :
    ∀ task ∈ queue.catalog.tasks, task.status = .done → task ∈ queue'.catalog.tasks :=
  ((QueueInvariant.of_reachable h).taskQueueStep hstep).2

theorem taskQueueStep_keeps_done_rows_chain :
    ∃ queue, dependencyChainEvents.foldlM (taskQueueStep defaultConfig) TaskQueue.initial = some queue ∧
      ∃ queue', taskQueueStep defaultConfig queue (.cancelJob 1) = some queue' ∧
        ∀ task ∈ queue.catalog.tasks, task.status = .done → task ∈ queue'.catalog.tasks := by
  obtain ⟨queue, hrun⟩ := Option.isSome_iff_exists.mp (by decide +kernel :
    (dependencyChainEvents.foldlM (taskQueueStep defaultConfig) TaskQueue.initial).isSome)
  have hcancel : taskQueueStep defaultConfig queue (.cancelJob 1) =
      some { queue with catalog := (queue.catalog.cancelTasksForJob 1).1 } := rfl
  exact ⟨_, hrun, _, hcancel,
    taskQueueStep_keeps_done_rows defaultConfig (EventRun.reachable_of_foldlM hrun) hcancel⟩

/-- Over every run of the queue, no two of the monitor's executors hold one task, and
the row of each executor's task is running, cancelling or cancelled. -/
theorem taskQueue_executors_hold_distinct_tasks (config : QueueMonitorConfig) {queue : TaskQueue}
    (h : EventRun.Reachable (taskQueueStep config) TaskQueue.initial queue) :
    (queue.monitor.currentExecutors.map (·.taskid)).Nodup ∧
      ∀ entry ∈ queue.monitor.currentExecutors, ∀ task ∈ queue.catalog.tasks,
        task.taskid = entry.taskid →
          task.status = .running ∨ task.status = .cancelling ∨ task.status = .cancelled := by
  have hinv := QueueInvariant.of_reachable h
  refine ⟨hinv.executors_nodup, fun entry hentry task htask hid => ?_⟩
  have hstatus := (hinv.executors entry hentry).executorStatus hinv.catalog htask hid
  cases hstatus' : task.status <;> simp_all [executorStatus]

theorem taskQueue_executors_hold_distinct_tasks_chain :
    ∃ queue, dependencyChainEvents.foldlM (taskQueueStep defaultConfig) TaskQueue.initial = some queue ∧
      (queue.monitor.currentExecutors.map (·.taskid)).Nodup ∧
      ∀ entry ∈ queue.monitor.currentExecutors, ∀ task ∈ queue.catalog.tasks,
        task.taskid = entry.taskid →
          task.status = .running ∨ task.status = .cancelling ∨ task.status = .cancelled := by
  obtain ⟨queue, hrun⟩ := Option.isSome_iff_exists.mp (by decide +kernel :
    (dependencyChainEvents.foldlM (taskQueueStep defaultConfig) TaskQueue.initial).isSome)
  exact ⟨queue, hrun,
    taskQueue_executors_hold_distinct_tasks defaultConfig (EventRun.reachable_of_foldlM hrun)⟩

end Citus.Background
