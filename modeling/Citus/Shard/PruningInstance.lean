import Citus.Shard.PruningTree
import Citus.Lib.Worklist

/-!
# Pruning instances

`PrunableExpressions` turns the simplified pruning tree into pruning instances:
conjunctions of restrictions on the partition column, each keeping only the most
restrictive bound of every kind. The walk of an `AND` node adds its restrictions
to the current instance. At an `OR` node the current instance is queued once per
disjunct and marked partial; once the first walk is over, every queued instance is
copied and its walk continues at its disjunct. An `= ANY (array)` restriction is
an `OR` of equalities and is queued the same way.

## Implementation notes

The source's instances live on the heap: `pruningInstances` and the queue hold
pointers, and the walk writes through `currentPruningInstance`. The model keeps
every allocated instance in `ClauseWalkerContext.instances` and a pointer is an
index there. The loop over the queue runs on fuel, one more than the number of
instances the walk can ever queue (`pendingWeight`).
-/

namespace Citus.Shard

variable {β : Type}

/-- `PruningInstance`; the default is the zeroed instance `palloc0` returns. -/
structure PruningInstance (β : Type) where
  hasValidConstraint : Bool := false
  evaluatesToFalse : Bool := false
  lessConsts : Option (Const β) := none
  lessEqualConsts : Option (Const β) := none
  equalConsts : Option (Const β) := none
  greaterEqualConsts : Option (Const β) := none
  greaterConsts : Option (Const β) := none
  hashedEqualConsts : Option (Const β) := none
  addedToPruningInstances : Bool := false
  isPartial : Bool := false
  deriving DecidableEq, Repr

instance : Inhabited (PruningInstance β) := ⟨{}⟩

/-- `PendingPruningInstance`: an instance, by address, and the node its walk
continues at. -/
structure PendingPruningInstance (β : Type) where
  pruningInstance : Nat
  continueAt : PruningTreeNode β

/-- The part of `ClauseWalkerContext` the walk writes, with the allocated
instances in `instances`. -/
structure ClauseWalkerContext (β : Type) where
  instances : List (PruningInstance β)
  pruningInstances : List Nat
  pendingInstances : List (PendingPruningInstance β)
  currentPruningInstance : Nat

namespace ClauseWalkerContext

/-- The instance `currentPruningInstance` points to. -/
def current (context : ClauseWalkerContext β) : PruningInstance β :=
  context.instances.getD context.currentPruningInstance {}

/-- A write through `currentPruningInstance`. -/
def modifyCurrent (context : ClauseWalkerContext β) (f : PruningInstance β → PruningInstance β) :
    ClauseWalkerContext β :=
  { context with instances := context.instances.modify context.currentPruningInstance f }

/-- The block of `PrunableExpressionsWalker` that lists the current instance in
`pruningInstances` the first time one of its constraints is seen. -/
def addCurrentToPruningInstances (context : ClauseWalkerContext β) : ClauseWalkerContext β :=
  if context.current.addedToPruningInstances then context
  else
    { context.modifyCurrent (fun prune => { prune with addedToPruningInstances := true }) with
      pruningInstances := context.pruningInstances ++ [context.currentPruningInstance] }

end ClauseWalkerContext

/-- `AddNewConjuction`: queue the current instance to continue at `node`, and mark
it partial. -/
def addNewConjuction (context : ClauseWalkerContext β) (node : PruningTreeNode β) :
    ClauseWalkerContext β :=
  let context := context.modifyCurrent fun prune => { prune with isPartial := true }
  { context with
    pendingInstances := context.pendingInstances ++ [⟨context.currentPruningInstance, node⟩] }

/-- `CopyPartialPruningInstance`. -/
def copyPartialPruningInstance (sourceInstance : PruningInstance β) : PruningInstance β :=
  { sourceInstance with addedToPruningInstances := false, isPartial := false }

section Restrictions

variable [LinearOrder β]

/-- One bound of an instance after a new constant for it: the constant replaces
the stored one when it compares as `keep` with it, that is when it is more
restrictive. -/
def tightenRestriction (keep : Ordering) (constantClause : Const β) :
    Option (Const β) → Option (Const β)
  | none => some constantClause
  | some stored =>
      if compare constantClause.constvalue stored.constvalue = keep then some constantClause
      else some stored

/-- The case of `AddPartitionKeyRestrictionToInstance` for one btree
interpretation of the operator. -/
def addStrategyRestriction (constantClause : Const β) (prune : PruningInstance β) :
    StrategyNumber → PruningInstance β
  | .less => { prune with lessConsts := tightenRestriction .lt constantClause prune.lessConsts }
  | .lessEqual =>
      { prune with lessEqualConsts := tightenRestriction .lt constantClause prune.lessEqualConsts }
  | .equal =>
      match prune.equalConsts with
      | none => { prune with equalConsts := some constantClause }
      | some stored =>
          -- the key cannot equal two values
          if compare constantClause.constvalue stored.constvalue ≠ .eq then
            { prune with evaluatesToFalse := true }
          else prune
  | .greaterEqual =>
      { prune with
        greaterEqualConsts := tightenRestriction .gt constantClause prune.greaterEqualConsts }
  | .greater =>
      { prune with greaterConsts := tightenRestriction .gt constantClause prune.greaterConsts }
  -- `Assert(false)`: a valid restriction has no such interpretation
  | .rowCompareNe => prune

/-- `AddPartitionKeyRestrictionToInstance`: the operator's strategies read as
`partitionColumn op constant`, whichever side of the clause the column is on. -/
def addPartitionKeyRestrictionToInstance (catalog : OperatorCatalog β) (opno : Nat)
    (constantClause : Const β) (prune : PruningInstance β) : PruningInstance β :=
  -- no pruning on NULL values
  if constantClause.constisnull then prune
  else
    { (catalog.btreeInterpretation opno).foldl (addStrategyRestriction constantClause) prune with
      hasValidConstraint := true }

end Restrictions

/-- `AddHashRestrictionToInstance`. -/
def addHashRestrictionToInstance (constantClause : Const β) (prune : PruningInstance β) :
    PruningInstance β :=
  { prune with hashedEqualConsts := some constantClause, hasValidConstraint := true }

section Walker

variable [LinearOrder β] (catalog : OperatorCatalog β) (partitionColumn : Var)

/-- `AddSAOPartitionKeyRestrictionToInstance`: the array's equalities become an
`OR` node that the current instance is queued to continue at. -/
def addSAOPartitionKeyRestrictionToInstance (context : ClauseWalkerContext β)
    (arrayOperatorExpression : Expr β) : ClauseWalkerContext β :=
  let restrictions := (saoRestrictions catalog partitionColumn arrayOperatorExpression).getD []
  addNewConjuction context { createPruningNode .orExpr with validConstraints := restrictions }

/-- The body of the loop of `PrunableExpressionsWalker` over an `AND` node's valid
constraints. -/
def addValidConstraint (context : ClauseWalkerContext β) (constraint : Expr β) :
    ClauseWalkerContext β :=
  match constraint with
  | .opExpr opno _ =>
      let context := context.addCurrentToPruningInstances
      match varConstOpExprClause constraint with
      | some (varClause, constantClause) =>
          if varClause = partitionColumn then
            context.modifyCurrent (addPartitionKeyRestrictionToInstance catalog opno constantClause)
          else if varClause.varattno = reservedHashedColumnId then
            context.modifyCurrent (addHashRestrictionToInstance constantClause)
          else context
      | none => context
  | .scalarArrayOpExpr .. =>
      addSAOPartitionKeyRestrictionToInstance catalog partitionColumn context constraint
  | _ => context

/-- The `AND` node with the one constraint of an `OR` node's disjunct. -/
def conjunctionOf (constraint : Expr β) : PruningTreeNode β :=
  { createPruningNode .andExpr with validConstraints := [constraint] }

/-- The `AND` node standing for an `OR` node's unknown disjuncts. -/
def invalidConjunction : PruningTreeNode β :=
  { createPruningNode .andExpr with hasInvalidConstraints := true }

mutual

/-- `PrunableExpressionsWalker`. -/
def prunableExpressionsWalker (context : ClauseWalkerContext β) :
    PruningTreeNode β → ClauseWalkerContext β
  | ⟨.orExpr, hasInvalidConstraints, validConstraints, childBooleanNodes⟩ =>
      -- queue the current instance once per disjunct
      let context := if hasInvalidConstraints then addNewConjuction context invalidConjunction
        else context
      let context := validConstraints.foldl
        (fun context constraint => addNewConjuction context (conjunctionOf constraint)) context
      childBooleanNodes.foldl addNewConjuction context
  | ⟨_, hasInvalidConstraints, validConstraints, childBooleanNodes⟩ =>
      let context := validConstraints.foldl (addValidConstraint catalog partitionColumn) context
      -- an unknown constraint lists the instance, so that pruning fails without others
      let context := if hasInvalidConstraints then context.addCurrentToPruningInstances
        else context
      prunableExpressionsWalkerList context childBooleanNodes

/-- The loop of `PrunableExpressionsWalker` over an `AND` node's children. -/
def prunableExpressionsWalkerList (context : ClauseWalkerContext β) :
    List (PruningTreeNode β) → ClauseWalkerContext β
  | [] => context
  | child :: rest => prunableExpressionsWalkerList (prunableExpressionsWalker context child) rest

end

/-- The number of instances walking a constraint of an `AND` node queues: an
`= ANY` clause queues its `OR` node, which queues one instance per equality. -/
def constraintWeight (constraint : Expr β) : Nat :=
  match constraint with
  | .scalarArrayOpExpr .. =>
      1 + ((saoRestrictions catalog partitionColumn constraint).getD []).length
  | _ => 0

mutual

/-- The number of instances walking a node queues, directly and through the walks
of the instances it queues. -/
def pendingWeight : PruningTreeNode β → Nat
  | ⟨.orExpr, hasInvalidConstraints, validConstraints, childBooleanNodes⟩ =>
      (if hasInvalidConstraints then 1 else 0) +
        (validConstraints.map fun constraint => 1 + constraintWeight catalog partitionColumn
          constraint).sum +
        queuedWeightList childBooleanNodes
  | ⟨_, _, validConstraints, childBooleanNodes⟩ =>
      (validConstraints.map (constraintWeight catalog partitionColumn)).sum +
        pendingWeightList childBooleanNodes

/-- `pendingWeight` summed over the children an `AND` node walks. -/
def pendingWeightList : List (PruningTreeNode β) → Nat
  | [] => 0
  | child :: rest => pendingWeight child + pendingWeightList rest

/-- The weight of the children an `OR` node queues, each counted with its own
queued instance. -/
def queuedWeightList : List (PruningTreeNode β) → Nat
  | [] => 0
  | child :: rest => 1 + pendingWeight child + queuedWeightList rest

end

/-- The first pending instance, taken off the queue. -/
def nextPendingInstance (context : ClauseWalkerContext β) :
    Option (PendingPruningInstance β × ClauseWalkerContext β) :=
  match context.pendingInstances with
  | [] => none
  | pending :: rest => some (pending, { context with pendingInstances := rest })

/-- One round of the loop of `PrunableExpressions`: the pending instance is copied
and its walk continues where it stopped, with the copy as current instance. -/
def completePendingInstance (pending : PendingPruningInstance β)
    (context : ClauseWalkerContext β) : ClauseWalkerContext β :=
  let newPrune := copyPartialPruningInstance (context.instances.getD pending.pruningInstance {})
  prunableExpressionsWalker catalog partitionColumn
    { context with
      instances := context.instances ++ [newPrune]
      currentPruningInstance := context.instances.length }
    pending.continueAt

/-- The context `PruneShards` starts the walk from: one zeroed instance, current. -/
def initialClauseWalkerContext : ClauseWalkerContext β :=
  ⟨[{}], [], [], 0⟩

/-- `PrunableExpressions`. -/
def prunableExpressions (tree : PruningTreeNode β) : ClauseWalkerContext β :=
  Worklist.drain nextPendingInstance (completePendingInstance catalog partitionColumn)
    (pendingWeight catalog partitionColumn tree + 1)
    (prunableExpressionsWalker catalog partitionColumn initialClauseWalkerContext tree)

end Walker

end Citus.Shard
