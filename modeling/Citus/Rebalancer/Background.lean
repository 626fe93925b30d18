import Citus.Rebalancer.Model
import Mathlib

/-!
# Dependencies of a background rebalance

`RebalanceTableShardsBackground` (`shard_rebalancer.c`) schedules one background task
per planned move, after a `replicate_reference_tables` task when some node lacks the
reference tables. Each move task depends on the latest earlier task of its colocation
group and on every earlier task that moves a shard away from its target node
(`GenerateTaskMoveDependencyList`, with the maps kept by
`UpdateShardMoveDependencies`); a move task that has no such dependency depends on the
reference table task instead.

With task ids drawn in scheduling order, every dependency points to an earlier task,
so the dependencies are acyclic; a move task depends, through a chain, on every
earlier move of its colocation group and on every earlier move away from its target;
and every move task depends, through a chain, on the reference table task
(`rebalanceTableShardsBackground_dependencies`). The latest task of a colocation group
depends on all earlier ones of the group, which is what the one-entry-per-group map
relies on (`ScheduleInvariant`).

## Implementation notes

* Task ids come from the task id sequence: `taskIdSequence k` is the id of the
  `k`-th task the job schedules.
* `GetColocationId` is a function of the move. The two hash maps are finite partial
  maps; `GenerateTaskMoveDependencyList` enters the colocation id with its lookup,
  which `UpdateShardMoveDependencies` then fills, so the entry is modelled as made
  by the update. The hash set of dependencies is a list without duplicates.
* The job is only created when there is a move; the SQL text of each task is not
  modelled.
-/

namespace Citus.Rebalancer

/-- `ShardMoveDependencies`: the task of the latest move of each colocation group, and
the tasks of the moves away from each node. -/
structure ShardMoveDependencies where
  colocationDependencies : Int → Option Int
  nodeDependencies : Nat → List Int

/-- `InitializeShardMoveDependencies`. -/
def initializeShardMoveDependencies : ShardMoveDependencies :=
  ⟨fun _ => none, fun _ => []⟩

/-- `GenerateTaskMoveDependencyList`. -/
def generateTaskMoveDependencyList (move : PlacementUpdateEvent) (colocationId : Int)
    (shardMoveDependencies : ShardMoveDependencies) : List Int :=
  ((shardMoveDependencies.colocationDependencies colocationId).toList ++
    shardMoveDependencies.nodeDependencies move.targetNode).dedup

/-- `UpdateShardMoveDependencies`. -/
def updateShardMoveDependencies (move : PlacementUpdateEvent) (colocationId taskId : Int)
    (shardMoveDependencies : ShardMoveDependencies) : ShardMoveDependencies :=
  { colocationDependencies :=
      Function.update shardMoveDependencies.colocationDependencies colocationId (some taskId)
    nodeDependencies :=
      Function.update shardMoveDependencies.nodeDependencies move.sourceNode
        (shardMoveDependencies.nodeDependencies move.sourceNode ++ [taskId]) }

/-- A task as `ScheduleBackgroundTask` records it. -/
structure BackgroundTask where
  taskId : Int
  dependsOn : List Int

/-- The state of the scheduling loop: how many tasks the job has, the tasks, and the
dependency maps. -/
structure MoveSchedule where
  scheduledTaskCount : Nat
  tasks : List BackgroundTask
  shardMoveDependencies : ShardMoveDependencies

/-- The task id of `replicate_reference_tables`, 0 when it is not scheduled. -/
def replicateRefTablesTaskId (taskIdSequence : Nat → Int)
    (hasNodesWithMissingReferenceTables : Bool) : Int :=
  if hasNodesWithMissingReferenceTables then taskIdSequence 0 else 0

/-- The schedule before the first move: the reference table task, if any. -/
def initialMoveSchedule (taskIdSequence : Nat → Int) (hasNodesWithMissingReferenceTables : Bool) :
    MoveSchedule :=
  if hasNodesWithMissingReferenceTables then
    ⟨1, [⟨taskIdSequence 0, []⟩], initializeShardMoveDependencies⟩
  else ⟨0, [], initializeShardMoveDependencies⟩

/-- One round of the scheduling loop: a task for one move. -/
def scheduleMoveTask (taskIdSequence : Nat → Int) (getColocationId : PlacementUpdateEvent → Int)
    (replicateRefTablesTaskId : Int) (schedule : MoveSchedule) (move : PlacementUpdateEvent) :
    MoveSchedule :=
  let colocationId := getColocationId move
  let dependsArray :=
    generateTaskMoveDependencyList move colocationId schedule.shardMoveDependencies
  let dependsArray :=
    if dependsArray.length = 0 ∧ replicateRefTablesTaskId > 0 then [replicateRefTablesTaskId]
    else dependsArray
  let taskId := taskIdSequence schedule.scheduledTaskCount
  { scheduledTaskCount := schedule.scheduledTaskCount + 1
    tasks := schedule.tasks ++ [⟨taskId, dependsArray⟩]
    shardMoveDependencies :=
      updateShardMoveDependencies move colocationId taskId schedule.shardMoveDependencies }

/-- The tasks `RebalanceTableShardsBackground` schedules for the planned moves. -/
def rebalanceTableShardsBackground (taskIdSequence : Nat → Int)
    (getColocationId : PlacementUpdateEvent → Int) (hasNodesWithMissingReferenceTables : Bool)
    (placementUpdateList : List PlacementUpdateEvent) : List BackgroundTask :=
  if placementUpdateList.length = 0 then []
  else
    (placementUpdateList.foldl
      (scheduleMoveTask taskIdSequence getColocationId
        (replicateRefTablesTaskId taskIdSequence hasNodesWithMissingReferenceTables))
      (initialMoveSchedule taskIdSequence hasNodesWithMissingReferenceTables)).tasks

/-! ## The dependency relation -/

/-- Task `a` depends on task `b`. -/
def DependsOn (tasks : List BackgroundTask) (a b : Int) : Prop :=
  ∃ task ∈ tasks, task.taskId = a ∧ b ∈ task.dependsOn

/-- The number of tasks before the first move task. -/
def referenceTaskCount (hasNodesWithMissingReferenceTables : Bool) : Nat :=
  if hasNodesWithMissingReferenceTables then 1 else 0

/-- The task id of the move at `index` in the list. -/
def moveTaskId (taskIdSequence : Nat → Int) (hasNodesWithMissingReferenceTables : Bool)
    (index : Nat) : Int :=
  taskIdSequence (referenceTaskCount hasNodesWithMissingReferenceTables + index)

theorem DependsOn.append {tasks : List BackgroundTask} (extra : List BackgroundTask) {a b : Int}
    (h : DependsOn tasks a b) : DependsOn (tasks ++ extra) a b := by
  obtain ⟨task, htask, hid, hdep⟩ := h
  exact ⟨task, List.mem_append_left extra htask, hid, hdep⟩

theorem transGen_dependsOn_append {tasks : List BackgroundTask} (extra : List BackgroundTask)
    {a b : Int} (h : Relation.TransGen (DependsOn tasks) a b) :
    Relation.TransGen (DependsOn (tasks ++ extra)) a b :=
  Relation.TransGen.mono (fun _ _ (hdep : DependsOn tasks _ _) => hdep.append extra) _ _ h

/-- Dependencies that all point to smaller ids have no cycle. -/
theorem lt_of_transGen_dependsOn {tasks : List BackgroundTask}
    (hbackward : ∀ task ∈ tasks, ∀ d ∈ task.dependsOn, d < task.taskId) {a b : Int}
    (h : Relation.TransGen (DependsOn tasks) a b) : b < a := by
  induction h with
  | single hdep =>
      obtain ⟨task, htask, rfl, hd⟩ := hdep
      exact hbackward task htask _ hd
  | tail _ hdep ih =>
      obtain ⟨task, htask, rfl, hd⟩ := hdep
      exact (hbackward task htask _ hd).trans ih

theorem getElem_append_singleton {α : Type} {done : List α} {move : α} {i : Nat}
    (hi : i < (done ++ [move]).length) :
    (∃ hlt : i < done.length, (done ++ [move])[i] = done[i]) ∨
      (i = done.length ∧ (done ++ [move])[i] = move) := by
  rcases Nat.lt_or_ge i done.length with hlt | hge
  · exact .inl ⟨hlt, List.getElem_append_left hlt⟩
  · have hlast : i = done.length := by
      rw [List.length_append, List.length_singleton] at hi
      omega
    exact .inr ⟨hlast, List.getElem_concat_length hlast hi⟩

/-! ## One round -/

section Round

variable (taskIdSequence : Nat → Int) (getColocationId : PlacementUpdateEvent → Int)
  (replicateRefTablesTaskId : Int) {schedule : MoveSchedule} {move : PlacementUpdateEvent}

theorem mem_generateTaskMoveDependencyList {colocationId : Int}
    {shardMoveDependencies : ShardMoveDependencies} {taskId : Int} :
    taskId ∈ generateTaskMoveDependencyList move colocationId shardMoveDependencies ↔
      shardMoveDependencies.colocationDependencies colocationId = some taskId ∨
        taskId ∈ shardMoveDependencies.nodeDependencies move.targetNode := by
  simp [generateTaskMoveDependencyList, List.mem_dedup, Option.mem_toList]

/-- The new task depends on every task of a dependency list that is not empty. -/
theorem dependsOn_scheduleMoveTask {taskId : Int}
    (hmem : taskId ∈ generateTaskMoveDependencyList move (getColocationId move)
      schedule.shardMoveDependencies) :
    DependsOn (scheduleMoveTask taskIdSequence getColocationId replicateRefTablesTaskId schedule
      move).tasks (taskIdSequence schedule.scheduledTaskCount) taskId := by
  refine ⟨_, List.mem_append_right _ List.mem_cons_self, rfl, ?_⟩
  rw [if_neg]
  · exact hmem
  · rintro ⟨hempty, -⟩
    rw [List.length_eq_zero_iff] at hempty
    rw [hempty] at hmem
    exact absurd hmem List.not_mem_nil

/-- A new task without other dependencies depends on the reference table task. -/
theorem dependsOn_scheduleMoveTask_reference
    (hempty : generateTaskMoveDependencyList move (getColocationId move)
      schedule.shardMoveDependencies = [])
    (hpos : 0 < replicateRefTablesTaskId) :
    DependsOn (scheduleMoveTask taskIdSequence getColocationId replicateRefTablesTaskId schedule
      move).tasks (taskIdSequence schedule.scheduledTaskCount) replicateRefTablesTaskId := by
  refine ⟨_, List.mem_append_right _ List.mem_cons_self, rfl, ?_⟩
  rw [if_pos ⟨by rw [hempty]; rfl, hpos⟩]
  exact List.mem_singleton_self _

/-- What the new task depends on: the tasks of its list, or else the reference table
task when it has a positive id. -/
theorem mem_dependsOn_scheduleMoveTask {task : BackgroundTask} {taskId : Int}
    (htask : task ∈ [(⟨taskIdSequence schedule.scheduledTaskCount,
      if (generateTaskMoveDependencyList move (getColocationId move)
          schedule.shardMoveDependencies).length = 0 ∧ replicateRefTablesTaskId > 0 then
        [replicateRefTablesTaskId]
      else generateTaskMoveDependencyList move (getColocationId move)
        schedule.shardMoveDependencies⟩ : BackgroundTask)])
    (hmem : taskId ∈ task.dependsOn) :
    task.taskId = taskIdSequence schedule.scheduledTaskCount ∧
      (taskId ∈ generateTaskMoveDependencyList move (getColocationId move)
          schedule.shardMoveDependencies ∨
        (0 < replicateRefTablesTaskId ∧ taskId = replicateRefTablesTaskId)) := by
  rw [List.mem_singleton] at htask
  subst htask
  refine ⟨rfl, ?_⟩
  dsimp only at hmem
  split_ifs at hmem with hfallback
  · exact .inr ⟨hfallback.2, List.mem_singleton.mp hmem⟩
  · exact .inl hmem

end Round

/-! ## The invariant of the scheduling loop -/

section Invariant

variable (taskIdSequence : Nat → Int) (getColocationId : PlacementUpdateEvent → Int)
  (hasNodesWithMissingReferenceTables : Bool)

/-- What the schedule keeps after scheduling the moves `done`: the tasks have the ids of
the sequence in order, each depends only on earlier tasks, the colocation map holds the
latest task of each group, which depends on all earlier tasks of the group, the node
map holds the tasks of the moves away from each node, and the claimed dependencies
hold among the moves so far. -/
structure ScheduleInvariant (done : List PlacementUpdateEvent) (schedule : MoveSchedule) :
    Prop where
  count_eq : schedule.scheduledTaskCount =
    referenceTaskCount hasNodesWithMissingReferenceTables + done.length
  taskIds_eq : schedule.tasks.map BackgroundTask.taskId =
    (List.range schedule.scheduledTaskCount).map taskIdSequence
  backward : ∀ task ∈ schedule.tasks, ∀ taskId ∈ task.dependsOn,
    taskId < task.taskId ∧ taskId ∈ schedule.tasks.map BackgroundTask.taskId
  colocation_none : ∀ colocationId,
    schedule.shardMoveDependencies.colocationDependencies colocationId = none →
      ∀ i (hi : i < done.length), getColocationId done[i] ≠ colocationId
  colocation_some : ∀ colocationId taskId,
    schedule.shardMoveDependencies.colocationDependencies colocationId = some taskId →
      ∃ latest, ∃ hlatest : latest < done.length,
        taskId = moveTaskId taskIdSequence hasNodesWithMissingReferenceTables latest ∧
        getColocationId done[latest] = colocationId ∧
        ∀ i (hi : i < done.length), getColocationId done[i] = colocationId →
          i = latest ∨ Relation.TransGen (DependsOn schedule.tasks) taskId
            (moveTaskId taskIdSequence hasNodesWithMissingReferenceTables i)
  node_mem : ∀ i (hi : i < done.length),
    moveTaskId taskIdSequence hasNodesWithMissingReferenceTables i ∈
      schedule.shardMoveDependencies.nodeDependencies done[i].sourceNode
  node_ids : ∀ node taskId, taskId ∈ schedule.shardMoveDependencies.nodeDependencies node →
    ∃ i < done.length, taskId = moveTaskId taskIdSequence hasNodesWithMissingReferenceTables i
  reference : hasNodesWithMissingReferenceTables = true → ∀ i < done.length,
    Relation.TransGen (DependsOn schedule.tasks)
      (moveTaskId taskIdSequence hasNodesWithMissingReferenceTables i) (taskIdSequence 0)
  pairs : ∀ i j (hij : i < j) (hj : j < done.length),
    (getColocationId done[i] = getColocationId done[j] ∨
        done[j].targetNode = done[i].sourceNode) →
      Relation.TransGen (DependsOn schedule.tasks)
        (moveTaskId taskIdSequence hasNodesWithMissingReferenceTables j)
        (moveTaskId taskIdSequence hasNodesWithMissingReferenceTables i)

theorem ScheduleInvariant.initial :
    ScheduleInvariant taskIdSequence getColocationId hasNodesWithMissingReferenceTables []
      (initialMoveSchedule taskIdSequence hasNodesWithMissingReferenceTables) := by
  constructor
  · cases hasNodesWithMissingReferenceTables <;> rfl
  · cases hasNodesWithMissingReferenceTables <;> rfl
  · cases hasNodesWithMissingReferenceTables <;> simp [initialMoveSchedule]
  · intro _ _ i hi
    exact absurd hi (Nat.not_lt_zero i)
  · intro colocationId taskId hsome
    cases hasNodesWithMissingReferenceTables <;> cases hsome
  · intro i hi
    exact absurd hi (Nat.not_lt_zero i)
  · intro node taskId hmem
    cases hasNodesWithMissingReferenceTables <;> cases hmem
  · intro _ i hi
    exact absurd hi (Nat.not_lt_zero i)
  · intro i j _ hj
    exact absurd hj (Nat.not_lt_zero j)

variable {taskIdSequence getColocationId hasNodesWithMissingReferenceTables}
  {done : List PlacementUpdateEvent} {schedule : MoveSchedule}

theorem moveTaskId_lt (hmono : StrictMono taskIdSequence) {i j : Nat} (hij : i < j) :
    moveTaskId taskIdSequence hasNodesWithMissingReferenceTables i <
      moveTaskId taskIdSequence hasNodesWithMissingReferenceTables j :=
  hmono (Nat.add_lt_add_left hij _)

namespace ScheduleInvariant

variable (hinv : ScheduleInvariant taskIdSequence getColocationId
  hasNodesWithMissingReferenceTables done schedule)
include hinv

/-- The next task is the task of the next move. -/
theorem moveTaskId_length :
    moveTaskId taskIdSequence hasNodesWithMissingReferenceTables done.length =
      taskIdSequence schedule.scheduledTaskCount := by
  rw [hinv.count_eq]
  rfl

theorem mem_taskIds {k : Nat} (hk : k < schedule.scheduledTaskCount) :
    taskIdSequence k ∈ schedule.tasks.map BackgroundTask.taskId := by
  rw [hinv.taskIds_eq]
  exact List.mem_map_of_mem (List.mem_range.mpr hk)

/-- Every task a dependency list names is the task of an earlier move. -/
theorem exists_of_mem_generate {taskId : Int}
    (hmem : taskId ∈ generateTaskMoveDependencyList move (getColocationId move)
      schedule.shardMoveDependencies) :
    ∃ i < done.length, taskId = moveTaskId taskIdSequence hasNodesWithMissingReferenceTables i := by
  rcases mem_generateTaskMoveDependencyList.mp hmem with hcolocation | hnode
  · obtain ⟨latest, hlatest, rfl, -⟩ := hinv.colocation_some _ _ hcolocation
    exact ⟨latest, hlatest, rfl⟩
  · exact hinv.node_ids _ _ hnode

/-- A new task depends, through a chain, on every earlier move of its group. -/
theorem transGen_colocation {i : Nat} (hi : i < done.length)
    (hcolocation : getColocationId done[i] = getColocationId move) :
    Relation.TransGen (DependsOn (scheduleMoveTask taskIdSequence getColocationId
        (replicateRefTablesTaskId taskIdSequence hasNodesWithMissingReferenceTables) schedule
        move).tasks)
      (taskIdSequence schedule.scheduledTaskCount)
      (moveTaskId taskIdSequence hasNodesWithMissingReferenceTables i) := by
  -- the group has a latest task, which the new task depends on
  cases hlookup : schedule.shardMoveDependencies.colocationDependencies (getColocationId move) with
  | none => exact absurd hcolocation (hinv.colocation_none _ hlookup i hi)
  | some latestTask =>
      obtain ⟨latest, hlatest, hlatestTask, -, hall⟩ := hinv.colocation_some _ _ hlookup
      have hdirect := dependsOn_scheduleMoveTask taskIdSequence getColocationId
        (replicateRefTablesTaskId taskIdSequence hasNodesWithMissingReferenceTables)
        (mem_generateTaskMoveDependencyList.mpr (.inl hlookup))
      rcases hall i hi hcolocation with rfl | hchain
      · rw [← hlatestTask]
        exact .single hdirect
      · exact .head hdirect (transGen_dependsOn_append _ hchain)

/-- A new task depends on every earlier move away from its target. -/
theorem dependsOn_node {i : Nat} (hi : i < done.length)
    (hnode : done[i].sourceNode = move.targetNode) :
    DependsOn (scheduleMoveTask taskIdSequence getColocationId
        (replicateRefTablesTaskId taskIdSequence hasNodesWithMissingReferenceTables) schedule
        move).tasks
      (taskIdSequence schedule.scheduledTaskCount)
      (moveTaskId taskIdSequence hasNodesWithMissingReferenceTables i) := by
  apply dependsOn_scheduleMoveTask
  apply mem_generateTaskMoveDependencyList.mpr
  right
  rw [← hnode]
  exact hinv.node_mem i hi

/-- A new task depends, through a chain, on the reference table task. -/
theorem transGen_reference (hpos : 0 < taskIdSequence 0)
    (href : hasNodesWithMissingReferenceTables = true) :
    Relation.TransGen (DependsOn (scheduleMoveTask taskIdSequence getColocationId
        (replicateRefTablesTaskId taskIdSequence hasNodesWithMissingReferenceTables) schedule
        move).tasks)
      (taskIdSequence schedule.scheduledTaskCount) (taskIdSequence 0) := by
  have hid : replicateRefTablesTaskId taskIdSequence hasNodesWithMissingReferenceTables =
      taskIdSequence 0 := by
    rw [replicateRefTablesTaskId, if_pos href]
  cases hlist : generateTaskMoveDependencyList move (getColocationId move)
      schedule.shardMoveDependencies with
  | nil =>
      -- no other dependency: the fallback to the reference table task
      have hdirect := dependsOn_scheduleMoveTask_reference taskIdSequence getColocationId
        (replicateRefTablesTaskId taskIdSequence hasNodesWithMissingReferenceTables) hlist
        (hid ▸ hpos)
      rw [← hid]
      exact .single hdirect
  | cons taskId rest =>
      -- an earlier move task, which already depends on the reference table task
      have hmem : taskId ∈ generateTaskMoveDependencyList move (getColocationId move)
          schedule.shardMoveDependencies := by
        rw [hlist]
        exact List.mem_cons_self
      obtain ⟨i, hi, rfl⟩ := hinv.exists_of_mem_generate hmem
      exact .head (dependsOn_scheduleMoveTask _ _ _ hmem)
        (transGen_dependsOn_append _ (hinv.reference href i hi))

/-- The step lemma of the scheduling loop. -/
theorem step (hmono : StrictMono taskIdSequence) (hpos : 0 < taskIdSequence 0) :
    ScheduleInvariant taskIdSequence getColocationId hasNodesWithMissingReferenceTables
      (done ++ [move]) (scheduleMoveTask taskIdSequence getColocationId
        (replicateRefTablesTaskId taskIdSequence hasNodesWithMissingReferenceTables) schedule
        move) := by
  have hnext := hinv.moveTaskId_length
  constructor
  · -- count_eq
    simp only [scheduleMoveTask, hinv.count_eq, List.length_append, List.length_singleton]
    omega
  · -- taskIds_eq
    simp only [scheduleMoveTask, List.map_append, hinv.taskIds_eq, List.range_succ]
    rfl
  · -- backward: the new task depends on earlier move tasks or the reference table task
    intro task htask taskId hmem
    have hkeep : ∀ taskId ∈ schedule.tasks.map BackgroundTask.taskId, taskId ∈
        (scheduleMoveTask taskIdSequence getColocationId
          (replicateRefTablesTaskId taskIdSequence hasNodesWithMissingReferenceTables) schedule
          move).tasks.map BackgroundTask.taskId := by
      intro taskId hid
      obtain ⟨task, htask, rfl⟩ := List.mem_map.mp hid
      exact List.mem_map.mpr ⟨task, List.mem_append_left _ htask, rfl⟩
    have hold : ∀ k < schedule.scheduledTaskCount, taskIdSequence k ∈
        (scheduleMoveTask taskIdSequence getColocationId
          (replicateRefTablesTaskId taskIdSequence hasNodesWithMissingReferenceTables) schedule
          move).tasks.map BackgroundTask.taskId :=
      fun k hk => hkeep _ (hinv.mem_taskIds hk)
    rcases List.mem_append.mp htask with htask | htask
    · obtain ⟨hlt, hid⟩ := hinv.backward task htask taskId hmem
      exact ⟨hlt, hkeep _ hid⟩
    obtain ⟨hid, hlist | ⟨hrefPos, rfl⟩⟩ :=
      mem_dependsOn_scheduleMoveTask taskIdSequence getColocationId _ htask hmem
    · obtain ⟨i, hi, rfl⟩ := hinv.exists_of_mem_generate hlist
      rw [hid, ← hnext]
      refine ⟨moveTaskId_lt hmono hi, ?_⟩
      apply hold
      rw [hinv.count_eq]
      exact Nat.add_lt_add_left hi _
    · have href : hasNodesWithMissingReferenceTables = true := by
        cases hasNodesWithMissingReferenceTables
        · exact absurd hrefPos (lt_irrefl 0)
        · rfl
      have hcount : 0 < schedule.scheduledTaskCount := by
        rw [hinv.count_eq, referenceTaskCount, if_pos href]
        omega
      have hrefId : replicateRefTablesTaskId taskIdSequence hasNodesWithMissingReferenceTables =
          taskIdSequence 0 := by
        rw [replicateRefTablesTaskId, if_pos href]
      have hmemRef := hold 0 hcount
      rw [← hrefId] at hmemRef
      refine ⟨?_, hmemRef⟩
      rw [hid, hrefId]
      exact hmono hcount
  · -- colocation_none
    intro colocationId hnone i hi
    have hne : colocationId ≠ getColocationId move := by
      rintro rfl
      simp [scheduleMoveTask, updateShardMoveDependencies] at hnone
    have hold : schedule.shardMoveDependencies.colocationDependencies colocationId = none := by
      simpa [scheduleMoveTask, updateShardMoveDependencies, Function.update_of_ne hne] using hnone
    rcases getElem_append_singleton hi with ⟨hlt, heq⟩ | ⟨rfl, heq⟩
    · rw [heq]
      exact hinv.colocation_none _ hold i hlt
    · rw [heq]
      exact Ne.symm hne
  · -- colocation_some: the new task is the latest of its group
    intro colocationId taskId hsome
    by_cases hgroup : colocationId = getColocationId move
    · subst hgroup
      have htask : taskId = taskIdSequence schedule.scheduledTaskCount := by
        simpa [scheduleMoveTask, updateShardMoveDependencies] using hsome.symm
      refine ⟨done.length, by simp, htask.trans hnext.symm, by simp, ?_⟩
      intro i hi hcolocation
      rcases getElem_append_singleton hi with ⟨hlt, heq⟩ | ⟨rfl, -⟩
      · rw [heq] at hcolocation
        rw [htask]
        exact .inr (hinv.transGen_colocation hlt hcolocation)
      · exact .inl rfl
    · have hold : schedule.shardMoveDependencies.colocationDependencies colocationId =
          some taskId := by
        simpa [scheduleMoveTask, updateShardMoveDependencies, Function.update_of_ne hgroup]
          using hsome
      obtain ⟨latest, hlatest, htask, hcolocation, hall⟩ := hinv.colocation_some _ _ hold
      refine ⟨latest, by simp; omega, htask, by rw [List.getElem_append_left hlatest]; exact hcolocation, ?_⟩
      intro i hi hgroup'
      rcases getElem_append_singleton hi with ⟨hlt, heq⟩ | ⟨rfl, heq⟩
      · rw [heq] at hgroup'
        rcases hall i hlt hgroup' with hsame | hchain
        · exact .inl hsame
        · exact .inr (transGen_dependsOn_append _ hchain)
      · rw [heq] at hgroup'
        exact absurd hgroup'.symm hgroup
  · -- node_mem
    intro i hi
    rcases getElem_append_singleton hi with ⟨hlt, heq⟩ | ⟨rfl, heq⟩
    · rw [heq]
      have hmem := hinv.node_mem i hlt
      simp only [scheduleMoveTask, updateShardMoveDependencies, Function.update_apply]
      split_ifs with hsource
      · rw [← hsource]
        exact List.mem_append_left _ hmem
      · exact hmem
    · rw [heq, hnext]
      simp [scheduleMoveTask, updateShardMoveDependencies]
  · -- node_ids
    intro node taskId hmem
    simp only [scheduleMoveTask, updateShardMoveDependencies, Function.update_apply] at hmem
    split_ifs at hmem with hsource
    · rcases List.mem_append.mp hmem with hmem | hmem
      · obtain ⟨i, hi, rfl⟩ := hinv.node_ids _ _ hmem
        exact ⟨i, by simp; omega, rfl⟩
      · rw [List.mem_singleton] at hmem
        exact ⟨done.length, by simp, hmem.trans hnext.symm⟩
    · obtain ⟨i, hi, rfl⟩ := hinv.node_ids _ _ hmem
      exact ⟨i, by simp; omega, rfl⟩
  · -- reference
    intro href i hi
    rw [List.length_append, List.length_singleton] at hi
    rcases Nat.lt_succ_iff_lt_or_eq.mp hi with hlt | rfl
    · exact transGen_dependsOn_append _ (hinv.reference href i hlt)
    · rw [hnext]
      exact hinv.transGen_reference hpos href
  · -- pairs: the new move against each earlier one
    intro i j hij hj hcondition
    rcases getElem_append_singleton hj with ⟨hlt, heq⟩ | ⟨rfl, heq⟩
    · rw [heq, List.getElem_append_left (hij.trans hlt)] at hcondition
      exact transGen_dependsOn_append _ (hinv.pairs i j hij hlt hcondition)
    · rw [heq, List.getElem_append_left hij] at hcondition
      rw [hnext]
      rcases hcondition with hcolocation | hnode
      · exact hinv.transGen_colocation hij hcolocation
      · exact .single (hinv.dependsOn_node hij hnode.symm)

end ScheduleInvariant

/-- The run lemma of the scheduling loop. -/
theorem ScheduleInvariant.foldl (hmono : StrictMono taskIdSequence) (hpos : 0 < taskIdSequence 0) :
    ∀ (moves : List PlacementUpdateEvent) {done : List PlacementUpdateEvent}
      {schedule : MoveSchedule},
      ScheduleInvariant taskIdSequence getColocationId hasNodesWithMissingReferenceTables done
          schedule →
        ScheduleInvariant taskIdSequence getColocationId hasNodesWithMissingReferenceTables
          (done ++ moves) (moves.foldl (scheduleMoveTask taskIdSequence getColocationId
            (replicateRefTablesTaskId taskIdSequence hasNodesWithMissingReferenceTables))
            schedule)
  | [], _, _, hinv => by
      rw [List.append_nil]
      exact hinv
  | move :: rest, _, _, hinv => by
      rw [List.foldl_cons, List.append_cons]
      exact ScheduleInvariant.foldl hmono hpos rest (hinv.step hmono hpos)

end Invariant

/-! ## The scheduled job -/

section Job

variable (taskIdSequence : Nat → Int) (getColocationId : PlacementUpdateEvent → Int)
  (hasNodesWithMissingReferenceTables : Bool)

/-- The tasks of a background rebalance, with ids drawn in order from a sequence of
positive ids: they are the first ids of the sequence, one per move after the reference
table task if there is one; every dependency points to an earlier scheduled task, so
there is no cycle; the task of a move depends, through a chain, on the task of every
earlier move of its colocation group and of every earlier move away from its target
node; and when the reference table task is scheduled, every move task depends on it
through a chain. -/
theorem rebalanceTableShardsBackground_dependencies (hmono : StrictMono taskIdSequence)
    (hpos : 0 < taskIdSequence 0) (placementUpdateList : List PlacementUpdateEvent) :
    (placementUpdateList ≠ [] →
      (rebalanceTableShardsBackground taskIdSequence getColocationId
          hasNodesWithMissingReferenceTables placementUpdateList).map BackgroundTask.taskId =
        (List.range (referenceTaskCount hasNodesWithMissingReferenceTables +
          placementUpdateList.length)).map taskIdSequence) ∧
    (∀ task ∈ rebalanceTableShardsBackground taskIdSequence getColocationId
        hasNodesWithMissingReferenceTables placementUpdateList, ∀ taskId ∈ task.dependsOn,
      taskId < task.taskId ∧ ∃ earlier ∈ rebalanceTableShardsBackground taskIdSequence
        getColocationId hasNodesWithMissingReferenceTables placementUpdateList,
        earlier.taskId = taskId) ∧
    (∀ taskId, ¬ Relation.TransGen (DependsOn (rebalanceTableShardsBackground taskIdSequence
        getColocationId hasNodesWithMissingReferenceTables placementUpdateList)) taskId taskId) ∧
    (∀ i j (hij : i < j) (hj : j < placementUpdateList.length),
      (getColocationId placementUpdateList[i] = getColocationId placementUpdateList[j] ∨
          placementUpdateList[j].targetNode = placementUpdateList[i].sourceNode) →
        Relation.TransGen (DependsOn (rebalanceTableShardsBackground taskIdSequence
            getColocationId hasNodesWithMissingReferenceTables placementUpdateList))
          (moveTaskId taskIdSequence hasNodesWithMissingReferenceTables j)
          (moveTaskId taskIdSequence hasNodesWithMissingReferenceTables i)) ∧
    (hasNodesWithMissingReferenceTables = true → ∀ j < placementUpdateList.length,
      Relation.TransGen (DependsOn (rebalanceTableShardsBackground taskIdSequence
          getColocationId hasNodesWithMissingReferenceTables placementUpdateList))
        (moveTaskId taskIdSequence hasNodesWithMissingReferenceTables j) (taskIdSequence 0)) := by
  by_cases hempty : placementUpdateList = []
  · -- no move: no job and no task
    subst hempty
    have htasks : rebalanceTableShardsBackground taskIdSequence getColocationId
        hasNodesWithMissingReferenceTables [] = [] := rfl
    rw [htasks]
    refine ⟨fun h => absurd rfl h, fun _ htask => absurd htask List.not_mem_nil, ?_,
      fun _ j _ hj => absurd hj (Nat.not_lt_zero j), fun _ j hj => absurd hj (Nat.not_lt_zero j)⟩
    intro taskId hcycle
    have hlt := lt_of_transGen_dependsOn (fun _ htask => absurd htask List.not_mem_nil) hcycle
    exact lt_irrefl taskId hlt
  have hinv := ScheduleInvariant.foldl hmono hpos placementUpdateList
    (ScheduleInvariant.initial taskIdSequence getColocationId hasNodesWithMissingReferenceTables)
  rw [List.nil_append] at hinv
  have htasks : rebalanceTableShardsBackground taskIdSequence getColocationId
      hasNodesWithMissingReferenceTables placementUpdateList =
        (placementUpdateList.foldl (scheduleMoveTask taskIdSequence getColocationId
          (replicateRefTablesTaskId taskIdSequence hasNodesWithMissingReferenceTables))
          (initialMoveSchedule taskIdSequence hasNodesWithMissingReferenceTables)).tasks := by
    unfold rebalanceTableShardsBackground
    rw [if_neg (fun hlength => hempty (List.length_eq_zero_iff.mp hlength))]
  rw [htasks]
  refine ⟨fun _ => by rw [hinv.taskIds_eq, hinv.count_eq], ?_, ?_, hinv.pairs, hinv.reference⟩
  · intro task htask taskId hmem
    obtain ⟨hlt, hid⟩ := hinv.backward task htask taskId hmem
    exact ⟨hlt, List.mem_map.mp hid⟩
  · intro taskId hcycle
    have hlt := lt_of_transGen_dependsOn
      (fun task htask taskId hmem => (hinv.backward task htask taskId hmem).1) hcycle
    exact lt_irrefl taskId hlt

example : (rebalanceTableShardsBackground (fun k => (k : Int) + 1)
    (fun move => (move.shardId : Int)) true [⟨1, 1, 2⟩, ⟨2, 2, 1⟩]).map
      BackgroundTask.dependsOn = [[], [1], [2]] := by decide

/-- A reference table task and two moves, the second into the node the first leaves,
with task ids 1, 2, 3: the second move task depends on the first, and both on the
reference table task. -/
theorem rebalanceTableShardsBackground_dependencies_two_moves :
    StrictMono (fun k : Nat => (k : Int) + 1) ∧
      Relation.TransGen (DependsOn (rebalanceTableShardsBackground (fun k => (k : Int) + 1)
          (fun move => (move.shardId : Int)) true [⟨1, 1, 2⟩, ⟨2, 2, 1⟩]))
        (moveTaskId (fun k => (k : Int) + 1) true 1) (moveTaskId (fun k => (k : Int) + 1) true 0) ∧
      Relation.TransGen (DependsOn (rebalanceTableShardsBackground (fun k => (k : Int) + 1)
          (fun move => (move.shardId : Int)) true [⟨1, 1, 2⟩, ⟨2, 2, 1⟩]))
        (moveTaskId (fun k => (k : Int) + 1) true 1) 1 := by
  have hmono : StrictMono (fun k : Nat => (k : Int) + 1) := by
    intro a b hab
    dsimp only
    omega
  have h := rebalanceTableShardsBackground_dependencies (fun k => (k : Int) + 1)
    (fun move => (move.shardId : Int)) true hmono (by decide) [⟨1, 1, 2⟩, ⟨2, 2, 1⟩]
  exact ⟨hmono, h.2.2.2.1 0 1 (by decide) (by decide) (.inr rfl), h.2.2.2.2 rfl 1 (by decide)⟩

end Job

end Citus.Rebalancer
