import Citus.Shard.Clause

/-!
# The pruning tree

`PruneShards` first compresses the WHERE clause list into a tree of `AND` and
`OR` nodes (`BuildPruningTree`). Each node keeps the clauses it can prune on
(valid constraints), one flag for all clauses it cannot use, and its children,
whose operator always differs from its own. `SimplifyPruningTree` then merges every
node left with a single constraint into its parent.

## Implementation notes

The source builds the tree through a pointer to the current node and appends a
child before filling it; the model fills the child and then appends it, which
gives the same tree because nothing reads the parent in between. Likewise
`SimplifyPruningTree` edits the tree in place while walking a copy of each child
list; the model returns the simplified node.
-/

namespace Citus.Shard

variable {β : Type}

section Conditions

variable (catalog : OperatorCatalog β) (partitionColumn : Var)

/-- `VarConstOpExprClause`: a binary operator clause with a `Var` on one side and
a `Const` on the other, in either order. -/
def varConstOpExprClause : Expr β → Option (Var × Const β)
  | .opExpr _ [.var varClause, .const constantClause] => some (varClause, constantClause)
  | .opExpr _ [.const constantClause, .var varClause] => some (varClause, constantClause)
  | _ => none

/-- `IsValidPartitionKeyRestriction`: the operator has a btree interpretation and
none of them is `ROWCOMPARE_NE`. -/
def isValidPartitionKeyRestriction (opno : Nat) : Bool :=
  let btreeInterpretationList := catalog.btreeInterpretation opno
  btreeInterpretationList.all (· != .rowCompareNe) && !btreeInterpretationList.isEmpty

/-- `IsValidHashRestriction`: some btree interpretation of the operator is `>=`. -/
def isValidHashRestriction (opno : Nat) : Bool :=
  (catalog.btreeInterpretation opno).contains .greaterEqual

/-- `SAORestrictions`: for `partitionColumn = ANY (array constant)` with an equality
operator, the clauses `partitionColumn = element` for the array's non-null
elements; `none` when the clause is not of that form or has no such element. -/
def saoRestrictions : Expr β → Option (List (Expr β))
  | .scalarArrayOpExpr opno _ [.var varClause, .arrayConst elements constisnull] =>
      if catalog.implementsEquality opno && varClause == partitionColumn && !constisnull then
        -- `IN (NULL)` never matches, so NULL elements give no restriction
        let restrictions := elements.filterMap fun element =>
          element.map fun arrayElement =>
            Expr.opExpr opno [.var varClause, .const ⟨arrayElement, false⟩]
        if restrictions.isEmpty then none else some restrictions
      else none
  | _ => none

/-- `IsValidConditionNode`: a clause the pruner can use, on the partition column or
on the hashed pseudo-column. -/
def isValidConditionNode (node : Expr β) : Bool :=
  match node with
  | .opExpr opno _ =>
      match varConstOpExprClause node with
      | some (varClause, _) =>
          if varClause = partitionColumn then isValidPartitionKeyRestriction catalog opno
          else if varClause.varattno = reservedHashedColumnId then
            isValidHashRestriction catalog opno
          else false
      | none => false
  | .scalarArrayOpExpr .. => (saoRestrictions catalog partitionColumn node).isSome
  | _ => false

/-- `ContainsFalseClause`: a top-level boolean constant whose `Datum` is false (a
NULL constant's `Datum` is zero). -/
def containsFalseClause (whereClauseList : List (Expr β)) : Bool :=
  whereClauseList.any fun
    | .boolConst constvalue _ => !constvalue
    | _ => false

end Conditions

/-- `PruningTreeNode`. -/
structure PruningTreeNode (β : Type) where
  boolop : BoolExprType
  hasInvalidConstraints : Bool
  validConstraints : List (Expr β)
  childBooleanNodes : List (PruningTreeNode β)

/-- `CreatePruningNode`. -/
def createPruningNode (boolop : BoolExprType) : PruningTreeNode β :=
  ⟨boolop, false, [], []⟩

/-- `ConstraintCount`: children, valid constraints, and one for the invalid ones. -/
def constraintCount (node : PruningTreeNode β) : Nat :=
  node.childBooleanNodes.length + node.validConstraints.length +
    (if node.hasInvalidConstraints then 1 else 0)

section Build

variable (catalog : OperatorCatalog β) (partitionColumn : Var)

mutual

/-- `BuildPruningTree` on one clause: what it adds to the current node. -/
def buildPruningTree (current : PruningTreeNode β) : Expr β → PruningTreeNode β
  | .boolExpr .notExpr _ =>
      -- subqueries inside `NOT` reach here; they are unknown constraints
      { current with hasInvalidConstraints := true }
  | .boolExpr boolop args =>
      if current.boolop ≠ boolop then
        let child := buildPruningTreeList (createPruningNode boolop) args
        { current with childBooleanNodes := current.childBooleanNodes ++ [child] }
      else buildPruningTreeList current args
  | node =>
      if isValidConditionNode catalog partitionColumn node then
        { current with validConstraints := current.validConstraints ++ [node] }
      else { current with hasInvalidConstraints := true }

/-- `BuildPruningTree` on a `List` node: each element in turn. -/
def buildPruningTreeList (current : PruningTreeNode β) : List (Expr β) → PruningTreeNode β
  | [] => current
  | node :: rest => buildPruningTreeList (buildPruningTree current node) rest

end

end Build

section Simplify

/-- The parent after a simplified child is merged into it: the child's
constraints join the parent's and the child is dropped. -/
def mergeChild (parent child : PruningTreeNode β) : PruningTreeNode β :=
  { parent with
    validConstraints := parent.validConstraints ++ child.validConstraints
    hasInvalidConstraints := parent.hasInvalidConstraints || child.hasInvalidConstraints }

mutual

/-- `SimplifyPruningTree` below a node: every child is simplified, then merged into
the node when at most one constraint is left in it. -/
def simplifyPruningTree : PruningTreeNode β → PruningTreeNode β
  | ⟨boolop, hasInvalidConstraints, validConstraints, childBooleanNodes⟩ =>
      simplifyChildren ⟨boolop, hasInvalidConstraints, validConstraints, []⟩ childBooleanNodes

/-- The loop of `SimplifyPruningTree` over a node's children. -/
def simplifyChildren (node : PruningTreeNode β) :
    List (PruningTreeNode β) → PruningTreeNode β
  | [] => node
  | child :: rest =>
      let child := simplifyPruningTree child
      simplifyChildren
        (if constraintCount child ≤ 1 then mergeChild node child
        else { node with childBooleanNodes := node.childBooleanNodes ++ [child] })
        rest

end

end Simplify

end Citus.Shard
