import Citus.Shard.PruningTree
import Mathlib

/-!
# What the pruning tree says of a row

`PruneShards` replaces the WHERE clause list by a pruning tree (`BuildPruningTree`,
`SimplifyPruningTree`) before it reads any restriction. This module gives the tree a
meaning on a row (`PruningTreeNode.Holds`): an `AND` node holds when its valid
constraints are true and its children hold, an `OR` node when it has unknown
constraints, a true valid constraint or a holding child. Unknown constraints of an `AND`
node say nothing, since the pruner may not rely on them.

A row that satisfies the clause list satisfies the tree built from it
(`holds_buildPruningTreeList_root`). Simplification keeps this when every node below the
root is sturdy (`Sturdy`: two children, a valid constraint or an unknown one), for then
a node that `SimplifyPruningTree` merges into its parent has no children of its own.
Trees built from clauses whose `AND` and `OR` have two arguments or more, the form in
which PostgreSQL's planner hands them over, are sturdy below the root
(`below_sturdy_buildPruningTreeList`). A node with a single child and nothing else would
be merged with its child dropped, and the child's constraints lost with it.

The same two passes keep the valid constraints drawn from the clauses
(`PruningTreeNode.AllConstraints`), and simplification leaves every node below the root
with at least two constraints (`below_constraintCount_simplifyPruningTree`), which the
walk over the tree relies on.
-/

namespace Citus.Shard

variable {β : Type}

section Predicates

mutual

/-- `q` holds of a clause and, through `AND` and `OR`, of every argument in it; the
arguments of `NOT` are not looked at, since the pruner treats `NOT` as unknown. -/
def Expr.allUnderAndOr (q : Expr β → Bool) : Expr β → Bool
  | e@(.boolExpr .andExpr args) => q e && Expr.allUnderAndOrList q args
  | e@(.boolExpr .orExpr args) => q e && Expr.allUnderAndOrList q args
  | e => q e

/-- `Expr.allUnderAndOr` on each clause of a list. -/
def Expr.allUnderAndOrList (q : Expr β → Bool) : List (Expr β) → Bool
  | [] => true
  | e :: es => Expr.allUnderAndOr q e && Expr.allUnderAndOrList q es

end

theorem Expr.allUnderAndOrList_iff {q : Expr β → Bool} {es : List (Expr β)} :
    Expr.allUnderAndOrList q es = true ↔ ∀ e ∈ es, e.allUnderAndOr q = true := by
  induction es with
  | nil => simp [Expr.allUnderAndOrList]
  | cons e es ih => simp [Expr.allUnderAndOrList, ih]

theorem Expr.allUnderAndOr_self {q : Expr β → Bool} {e : Expr β} (h : e.allUnderAndOr q = true) :
    q e = true := by
  unfold Expr.allUnderAndOr at h
  split at h <;> simp_all

theorem Expr.allUnderAndOr_args {q : Expr β → Bool} {boolop : BoolExprType} {args : List (Expr β)}
    (hop : boolop ≠ .notExpr) (h : (Expr.boolExpr boolop args).allUnderAndOr q = true) :
    ∀ e ∈ args, e.allUnderAndOr q = true := by
  cases boolop with
  | notExpr => exact absurd rfl hop
  | andExpr | orExpr =>
      simp only [Expr.allUnderAndOr, Bool.and_eq_true] at h
      exact Expr.allUnderAndOrList_iff.mp h.2

/-- The connectives as PostgreSQL's planner leaves them: an `AND` or an `OR` has at
least two arguments. -/
def Expr.connectiveHasTwoArgs : Expr β → Bool
  | .boolExpr .andExpr args => 2 ≤ args.length
  | .boolExpr .orExpr args => 2 ≤ args.length
  | _ => true

/-- A partition column comparison written with the column on the left, and no
restriction on the hashed pseudo-column of Citus's own shard queries. -/
def Expr.restrictsAsWritten (partitionColumn : Var) : Expr β → Bool
  | .opExpr _ [.var varClause, .const _] =>
      varClause == partitionColumn || varClause.varattno != reservedHashedColumnId
  | .opExpr _ [.const _, .var varClause] =>
      varClause != partitionColumn && varClause.varattno != reservedHashedColumnId
  | _ => true

end Predicates

namespace PruningTreeNode

section Below

mutual

/-- `q` holds of every node below `node`. -/
def Below (q : PruningTreeNode β → Prop) : PruningTreeNode β → Prop
  | ⟨_, _, _, childBooleanNodes⟩ => BelowEach q childBooleanNodes

/-- `q` holds of each node of the list and of every node below it. -/
def BelowEach (q : PruningTreeNode β → Prop) : List (PruningTreeNode β) → Prop
  | [] => True
  | child :: rest => (q child ∧ Below q child) ∧ BelowEach q rest

end

variable {q : PruningTreeNode β → Prop}

theorem belowEach_iff {nodes : List (PruningTreeNode β)} :
    BelowEach q nodes ↔ ∀ child ∈ nodes, q child ∧ child.Below q := by
  induction nodes with
  | nil => simp [BelowEach]
  | cons child rest ih => simp [BelowEach, ih]

theorem below_iff {node : PruningTreeNode β} :
    node.Below q ↔ ∀ child ∈ node.childBooleanNodes, q child ∧ child.Below q := by
  obtain ⟨_, _, _, childBooleanNodes⟩ := node
  exact belowEach_iff

end Below

/-- Every valid constraint of the tree satisfies `q`. -/
def AllConstraints (q : Expr β → Prop) (node : PruningTreeNode β) : Prop :=
  (∀ constraint ∈ node.validConstraints, q constraint) ∧
    node.Below fun child => ∀ constraint ∈ child.validConstraints, q constraint

/-- Two children, a valid constraint or an unknown one: a node that, once simplified,
is merged into its parent only if it has no children left. -/
def Sturdy (node : PruningTreeNode β) : Prop :=
  2 ≤ node.childBooleanNodes.length ∨ 0 < node.validConstraints.length ∨
    node.hasInvalidConstraints = true

theorem allConstraints_iff {q : Expr β → Prop} {node : PruningTreeNode β} :
    node.AllConstraints q ↔ (∀ constraint ∈ node.validConstraints, q constraint) ∧
      ∀ child ∈ node.childBooleanNodes, child.AllConstraints q := by
  simp only [AllConstraints, @below_iff _ _ node]

/-- `node'` has the connective of `node`, at least its valid constraints and children,
and its unknown constraints: what building and simplifying do to a node. -/
structure Grows (node node' : PruningTreeNode β) : Prop where
  boolop_eq : node'.boolop = node.boolop
  valid_le : node.validConstraints.length ≤ node'.validConstraints.length
  children_le : node.childBooleanNodes.length ≤ node'.childBooleanNodes.length
  invalid_imp : node.hasInvalidConstraints = true → node'.hasInvalidConstraints = true

theorem Grows.refl (node : PruningTreeNode β) : Grows node node :=
  ⟨rfl, le_rfl, le_rfl, id⟩

theorem Grows.trans {node node' node'' : PruningTreeNode β} (h : Grows node node')
    (h' : Grows node' node'') : Grows node node'' :=
  ⟨h'.boolop_eq.trans h.boolop_eq, h.valid_le.trans h'.valid_le,
    h.children_le.trans h'.children_le, h'.invalid_imp ∘ h.invalid_imp⟩

theorem Sturdy.of_grows {node node' : PruningTreeNode β} (h : Grows node node')
    (hsturdy : node.Sturdy) : node'.Sturdy := by
  have hvalid := h.valid_le
  have hchildren := h.children_le
  rcases hsturdy with htwo | hone | hinvalid
  · exact Or.inl (by omega)
  · exact Or.inr (Or.inl (by omega))
  · exact Or.inr (Or.inr (h.invalid_imp hinvalid))

section Holds

variable (catalog : OperatorCatalog β) (partitionColumn : Var) (row : Row β)

mutual

/-- What a node says of a row. The unknown constraints of an `AND` node say nothing;
those of an `OR` node make it hold. -/
def Holds : PruningTreeNode β → Prop
  | ⟨.orExpr, hasInvalidConstraints, validConstraints, childBooleanNodes⟩ =>
      hasInvalidConstraints = true ∨
        (∃ constraint ∈ validConstraints, constraint.eval catalog partitionColumn row = some true) ∨
        HoldsSome childBooleanNodes
  | ⟨_, _, validConstraints, childBooleanNodes⟩ =>
      (∀ constraint ∈ validConstraints, constraint.eval catalog partitionColumn row = some true) ∧
        HoldsEach childBooleanNodes

/-- Some node of the list holds. -/
def HoldsSome : List (PruningTreeNode β) → Prop
  | [] => False
  | child :: rest => Holds child ∨ HoldsSome rest

/-- Every node of the list holds. -/
def HoldsEach : List (PruningTreeNode β) → Prop
  | [] => True
  | child :: rest => Holds child ∧ HoldsEach rest

end

variable {catalog partitionColumn row}

theorem holdsSome_iff {nodes : List (PruningTreeNode β)} :
    HoldsSome catalog partitionColumn row nodes ↔
      ∃ child ∈ nodes, child.Holds catalog partitionColumn row := by
  induction nodes with
  | nil => simp [HoldsSome]
  | cons child rest ih => simp [HoldsSome, ih]

theorem holdsEach_iff {nodes : List (PruningTreeNode β)} :
    HoldsEach catalog partitionColumn row nodes ↔
      ∀ child ∈ nodes, child.Holds catalog partitionColumn row := by
  induction nodes with
  | nil => simp [HoldsEach]
  | cons child rest ih => simp [HoldsEach, ih]

theorem holds_iff_of_or {node : PruningTreeNode β} (hor : node.boolop = .orExpr) :
    node.Holds catalog partitionColumn row ↔ node.hasInvalidConstraints = true ∨
      (∃ constraint ∈ node.validConstraints,
        constraint.eval catalog partitionColumn row = some true) ∨
      ∃ child ∈ node.childBooleanNodes, child.Holds catalog partitionColumn row := by
  obtain ⟨boolop, hasInvalidConstraints, validConstraints, childBooleanNodes⟩ := node
  subst hor
  simp only [Holds, holdsSome_iff]

theorem holds_iff_of_ne_or {node : PruningTreeNode β} (hor : node.boolop ≠ .orExpr) :
    node.Holds catalog partitionColumn row ↔
      (∀ constraint ∈ node.validConstraints,
        constraint.eval catalog partitionColumn row = some true) ∧
      ∀ child ∈ node.childBooleanNodes, child.Holds catalog partitionColumn row := by
  obtain ⟨boolop, hasInvalidConstraints, validConstraints, childBooleanNodes⟩ := node
  cases boolop with
  | orExpr => exact absurd rfl hor
  | andExpr | notExpr => simp only [Holds, holdsEach_iff]

/-- A node with no children and nothing valid: an `AND` node that holds of every row. -/
theorem holds_createPruningNode_and :
    (createPruningNode .andExpr : PruningTreeNode β).Holds catalog partitionColumn row := by
  simp [createPruningNode, Holds, HoldsEach]

/-- An `OR` node keeps holding when it gains unknown or valid constraints or children. -/
theorem Holds.mono_or {node node' : PruningTreeNode β} (hor : node.boolop = .orExpr)
    (hor' : node'.boolop = .orExpr)
    (hflag : node.hasInvalidConstraints = true → node'.hasInvalidConstraints = true)
    (hvalid : node.validConstraints ⊆ node'.validConstraints)
    (hchildren : node.childBooleanNodes ⊆ node'.childBooleanNodes)
    (h : node.Holds catalog partitionColumn row) : node'.Holds catalog partitionColumn row := by
  rw [holds_iff_of_or hor] at h
  rw [holds_iff_of_or hor']
  rcases h with hinvalid | ⟨constraint, hmem, htrue⟩ | ⟨child, hmem, hchild⟩
  · exact Or.inl (hflag hinvalid)
  · exact Or.inr (Or.inl ⟨constraint, hvalid hmem, htrue⟩)
  · exact Or.inr (Or.inr ⟨child, hchildren hmem, hchild⟩)

end Holds

end PruningTreeNode

open PruningTreeNode

/-! ### Building the tree -/

section Build

variable (catalog : OperatorCatalog β) (partitionColumn : Var)

/-- `BuildPruningTree` on a `NOT`: an unknown constraint. -/
theorem buildPruningTree_not (current : PruningTreeNode β) (args : List (Expr β)) :
    buildPruningTree catalog partitionColumn current (.boolExpr .notExpr args) =
      { current with hasInvalidConstraints := true } :=
  buildPruningTree.eq_1 catalog partitionColumn current args

/-- `BuildPruningTree` on another connective than the current node's: a new child. -/
theorem buildPruningTree_child {current : PruningTreeNode β} {boolop : BoolExprType}
    (args : List (Expr β)) (hnot : boolop ≠ .notExpr) (hne : current.boolop ≠ boolop) :
    buildPruningTree catalog partitionColumn current (.boolExpr boolop args) =
      { current with
        childBooleanNodes := current.childBooleanNodes ++
          [buildPruningTreeList catalog partitionColumn (createPruningNode boolop) args] } := by
  rw [buildPruningTree.eq_2 catalog partitionColumn current boolop args hnot, if_pos hne]

/-- `BuildPruningTree` on the current node's connective: its arguments join the node. -/
theorem buildPruningTree_flatten {current : PruningTreeNode β} {boolop : BoolExprType}
    (args : List (Expr β)) (hnot : boolop ≠ .notExpr) (heq : current.boolop = boolop) :
    buildPruningTree catalog partitionColumn current (.boolExpr boolop args) =
      buildPruningTreeList catalog partitionColumn current args := by
  rw [buildPruningTree.eq_2 catalog partitionColumn current boolop args hnot,
    if_neg (not_not.mpr heq)]

/-- `BuildPruningTree` on any other clause: a valid constraint or an unknown one. -/
theorem buildPruningTree_leaf (current : PruningTreeNode β) {node : Expr β}
    (hnot : ∀ args, node ≠ .boolExpr .notExpr args)
    (hbool : ∀ boolop args, node ≠ .boolExpr boolop args) :
    buildPruningTree catalog partitionColumn current node =
      if isValidConditionNode catalog partitionColumn node then
        { current with validConstraints := current.validConstraints ++ [node] }
      else { current with hasInvalidConstraints := true } :=
  buildPruningTree.eq_3 catalog partitionColumn current node hnot hbool

theorem boolop_buildPruningTree :
    (∀ (current : PruningTreeNode β) (e : Expr β),
      (buildPruningTree catalog partitionColumn current e).boolop = current.boolop) ∧
    ∀ (current : PruningTreeNode β) (args : List (Expr β)),
      (buildPruningTreeList catalog partitionColumn current args).boolop = current.boolop := by
  refine buildPruningTree.mutual_induct catalog partitionColumn
    (fun current e => (buildPruningTree catalog partitionColumn current e).boolop = current.boolop)
    (fun current args =>
      (buildPruningTreeList catalog partitionColumn current args).boolop = current.boolop)
    ?_ ?_ ?_ ?_ ?_ ?_ ?_
  · intro current args
    rw [buildPruningTree_not]
  · intro current boolop args hnot hne _
    rw [buildPruningTree_child catalog partitionColumn args hnot hne]
  · intro current boolop args hnot hne ih
    rw [buildPruningTree_flatten catalog partitionColumn args hnot (not_not.mp hne), ih]
  · intro current node hnot hbool hvalid
    rw [buildPruningTree_leaf catalog partitionColumn current hnot hbool, if_pos hvalid]
  · intro current node hnot hbool hvalid
    rw [buildPruningTree_leaf catalog partitionColumn current hnot hbool, if_neg hvalid]
  · intro current
    rfl
  · intro current node rest ih ih'
    rw [buildPruningTreeList, ih', ih]

end Build

section BuildShape

variable (catalog : OperatorCatalog β) (partitionColumn : Var)

/-- What one clause adds to a node: a valid constraint, an unknown one or a child. -/
def Adds (node node' : PruningTreeNode β) : Prop :=
  0 < node'.validConstraints.length ∨ node'.hasInvalidConstraints = true ∨
    node.childBooleanNodes.length < node'.childBooleanNodes.length

/-- Building only adds to a node, and a clause whose connectives have two arguments
adds something. -/
theorem grows_buildPruningTree :
    (∀ (current : PruningTreeNode β) (e : Expr β), e.allUnderAndOr Expr.connectiveHasTwoArgs →
      Grows current (buildPruningTree catalog partitionColumn current e) ∧
        Adds current (buildPruningTree catalog partitionColumn current e)) ∧
    ∀ (current : PruningTreeNode β) (args : List (Expr β)),
      (∀ arg ∈ args, arg.allUnderAndOr Expr.connectiveHasTwoArgs) →
      Grows current (buildPruningTreeList catalog partitionColumn current args) ∧
        (args ≠ [] → Adds current (buildPruningTreeList catalog partitionColumn current args)) := by
  refine buildPruningTree.mutual_induct catalog partitionColumn
    (fun current e => e.allUnderAndOr Expr.connectiveHasTwoArgs →
      Grows current (buildPruningTree catalog partitionColumn current e) ∧
        Adds current (buildPruningTree catalog partitionColumn current e))
    (fun current args => (∀ arg ∈ args, arg.allUnderAndOr Expr.connectiveHasTwoArgs) →
      Grows current (buildPruningTreeList catalog partitionColumn current args) ∧
        (args ≠ [] → Adds current (buildPruningTreeList catalog partitionColumn current args)))
    ?_ ?_ ?_ ?_ ?_ ?_ ?_
  · intro current args _
    rw [buildPruningTree_not]
    exact ⟨⟨rfl, le_rfl, le_rfl, fun _ => rfl⟩, Or.inr (Or.inl rfl)⟩
  · intro current boolop args hnot hne _ _
    rw [buildPruningTree_child catalog partitionColumn args hnot hne]
    exact ⟨⟨rfl, le_rfl, by simp, id⟩, Or.inr (Or.inr (by simp))⟩
  · -- the arguments of the same connective: two of them, each adding something
    intro current boolop args hnot hne ih htwo
    rw [buildPruningTree_flatten catalog partitionColumn args hnot (not_not.mp hne)]
    have hlen : 2 ≤ args.length := by
      have hself := Expr.allUnderAndOr_self htwo
      cases boolop with
      | notExpr => exact absurd rfl hnot
      | andExpr | orExpr => simpa [Expr.connectiveHasTwoArgs] using hself
    obtain ⟨hgrows, hadds⟩ := ih (Expr.allUnderAndOr_args hnot htwo)
    exact ⟨hgrows, hadds (List.ne_nil_of_length_pos (by omega))⟩
  · intro current node hnot hbool hvalid _
    rw [buildPruningTree_leaf catalog partitionColumn current hnot hbool, if_pos hvalid]
    exact ⟨⟨rfl, by simp, le_rfl, id⟩, Or.inl (by simp)⟩
  · intro current node hnot hbool hvalid _
    rw [buildPruningTree_leaf catalog partitionColumn current hnot hbool, if_neg hvalid]
    exact ⟨⟨rfl, le_rfl, le_rfl, fun _ => rfl⟩, Or.inr (Or.inl rfl)⟩
  · intro current _
    exact ⟨Grows.refl current, fun hne => absurd rfl hne⟩
  · intro current node rest ih ih' hargs
    rw [buildPruningTreeList]
    obtain ⟨hgrows, hadds⟩ := ih (hargs node (List.mem_cons_self ..))
    obtain ⟨hgrows', -⟩ := ih' fun arg harg => hargs arg (List.mem_cons_of_mem _ harg)
    refine ⟨hgrows.trans hgrows', fun _ => ?_⟩
    have hvalid := hgrows'.valid_le
    have hchildren := hgrows'.children_le
    rcases hadds with hone | hinvalid | hlt
    · exact Or.inl (by omega)
    · exact Or.inr (Or.inl (hgrows'.invalid_imp hinvalid))
    · exact Or.inr (Or.inr (by omega))

/-- A node built from two arguments or more, each with two-argument connectives, is
sturdy. -/
theorem sturdy_buildPruningTreeList {boolop : BoolExprType} {args : List (Expr β)}
    (hlen : 2 ≤ args.length)
    (hargs : ∀ arg ∈ args, arg.allUnderAndOr Expr.connectiveHasTwoArgs) :
    (buildPruningTreeList catalog partitionColumn (createPruningNode boolop) args).Sturdy := by
  obtain ⟨first, second, rest, rfl⟩ : ∃ first second rest, args = first :: second :: rest :=
    match args, hlen with
    | first :: second :: rest, _ => ⟨first, second, rest, rfl⟩
  simp only [buildPruningTreeList]
  -- each of the first two arguments adds something to the empty node
  obtain ⟨hgrows₁, hadds₁⟩ := (grows_buildPruningTree catalog partitionColumn).1
    (createPruningNode boolop) first (hargs first (by simp))
  obtain ⟨hgrows₂, hadds₂⟩ := (grows_buildPruningTree catalog partitionColumn).1
    (buildPruningTree catalog partitionColumn (createPruningNode boolop) first) second
    (hargs second (by simp))
  obtain ⟨hgrows₃, -⟩ := (grows_buildPruningTree catalog partitionColumn).2 _ rest
    fun arg harg => hargs arg (by simp [harg])
  refine Sturdy.of_grows hgrows₃ ?_
  have hvalid := hgrows₂.valid_le
  rcases hadds₁ with hone | hinvalid | hchild
  · exact Or.inr (Or.inl (by omega))
  · exact Or.inr (Or.inr (hgrows₂.invalid_imp hinvalid))
  · rcases hadds₂ with hone' | hinvalid' | hchild'
    · exact Or.inr (Or.inl hone')
    · exact Or.inr (Or.inr hinvalid')
    · have hempty : (createPruningNode boolop : PruningTreeNode β).childBooleanNodes.length = 0 :=
        rfl
      exact Or.inl (by omega)

/-- Built from clauses with two-argument connectives, every node below the root is
sturdy. -/
theorem below_sturdy_buildPruningTree :
    (∀ (current : PruningTreeNode β) (e : Expr β), current.Below Sturdy →
      e.allUnderAndOr Expr.connectiveHasTwoArgs →
      (buildPruningTree catalog partitionColumn current e).Below Sturdy) ∧
    ∀ (current : PruningTreeNode β) (args : List (Expr β)), current.Below Sturdy →
      (∀ arg ∈ args, arg.allUnderAndOr Expr.connectiveHasTwoArgs) →
      (buildPruningTreeList catalog partitionColumn current args).Below Sturdy := by
  refine buildPruningTree.mutual_induct catalog partitionColumn
    (fun current e => current.Below Sturdy → e.allUnderAndOr Expr.connectiveHasTwoArgs →
      (buildPruningTree catalog partitionColumn current e).Below Sturdy)
    (fun current args => current.Below Sturdy →
      (∀ arg ∈ args, arg.allUnderAndOr Expr.connectiveHasTwoArgs) →
      (buildPruningTreeList catalog partitionColumn current args).Below Sturdy)
    ?_ ?_ ?_ ?_ ?_ ?_ ?_
  · intro current args hbelow _
    rw [buildPruningTree_not]
    have hchildren := below_iff.mp hbelow
    exact below_iff.mpr hchildren
  · -- the new child is sturdy, and so is everything below it
    intro current boolop args hnot hne ih hbelow htwo
    rw [buildPruningTree_child catalog partitionColumn args hnot hne]
    have hargs := Expr.allUnderAndOr_args hnot htwo
    have hlen : 2 ≤ args.length := by
      have hself := Expr.allUnderAndOr_self htwo
      cases boolop with
      | notExpr => exact absurd rfl hnot
      | andExpr | orExpr => simpa [Expr.connectiveHasTwoArgs] using hself
    refine below_iff.mpr fun child hmem => ?_
    rcases List.mem_append.mp hmem with hold | hnew
    · exact below_iff.mp hbelow child hold
    · rw [List.mem_singleton.mp hnew]
      exact ⟨sturdy_buildPruningTreeList catalog partitionColumn hlen hargs,
        ih (below_iff.mpr fun _ hmem => by simp [createPruningNode] at hmem) hargs⟩
  · intro current boolop args hnot hne ih hbelow htwo
    rw [buildPruningTree_flatten catalog partitionColumn args hnot (not_not.mp hne)]
    exact ih hbelow (Expr.allUnderAndOr_args hnot htwo)
  · intro current node hnot hbool hvalid hbelow _
    rw [buildPruningTree_leaf catalog partitionColumn current hnot hbool, if_pos hvalid]
    have hchildren := below_iff.mp hbelow
    exact below_iff.mpr hchildren
  · intro current node hnot hbool hvalid hbelow _
    rw [buildPruningTree_leaf catalog partitionColumn current hnot hbool, if_neg hvalid]
    have hchildren := below_iff.mp hbelow
    exact below_iff.mpr hchildren
  · intro current hbelow _
    exact hbelow
  · intro current node rest ih ih' hbelow hargs
    rw [buildPruningTreeList]
    exact ih' (ih hbelow (hargs node (List.mem_cons_self ..)))
      fun arg harg => hargs arg (List.mem_cons_of_mem _ harg)

/-- The valid constraints of a built tree are valid condition nodes drawn from the
clauses, through `AND` and `OR`. -/
theorem allConstraints_buildPruningTree (q : Expr β → Bool) :
    (∀ (current : PruningTreeNode β) (e : Expr β),
      current.AllConstraints (fun c => isValidConditionNode catalog partitionColumn c ∧ q c) →
      e.allUnderAndOr q →
      (buildPruningTree catalog partitionColumn current e).AllConstraints
        fun c => isValidConditionNode catalog partitionColumn c ∧ q c) ∧
    ∀ (current : PruningTreeNode β) (args : List (Expr β)),
      current.AllConstraints (fun c => isValidConditionNode catalog partitionColumn c ∧ q c) →
      (∀ arg ∈ args, arg.allUnderAndOr q) →
      (buildPruningTreeList catalog partitionColumn current args).AllConstraints
        fun c => isValidConditionNode catalog partitionColumn c ∧ q c := by
  refine buildPruningTree.mutual_induct catalog partitionColumn
    (fun current e =>
      current.AllConstraints (fun c => isValidConditionNode catalog partitionColumn c ∧ q c) →
      e.allUnderAndOr q →
      (buildPruningTree catalog partitionColumn current e).AllConstraints
        fun c => isValidConditionNode catalog partitionColumn c ∧ q c)
    (fun current args =>
      current.AllConstraints (fun c => isValidConditionNode catalog partitionColumn c ∧ q c) →
      (∀ arg ∈ args, arg.allUnderAndOr q) →
      (buildPruningTreeList catalog partitionColumn current args).AllConstraints
        fun c => isValidConditionNode catalog partitionColumn c ∧ q c)
    ?_ ?_ ?_ ?_ ?_ ?_ ?_
  · intro current args hall _
    rw [buildPruningTree_not]
    have hparts := allConstraints_iff.mp hall
    exact allConstraints_iff.mpr hparts
  · intro current boolop args hnot hne ih hall hq
    rw [buildPruningTree_child catalog partitionColumn args hnot hne]
    obtain ⟨hvalid, hchildren⟩ := allConstraints_iff.mp hall
    refine allConstraints_iff.mpr ⟨hvalid, fun child hmem => ?_⟩
    rcases List.mem_append.mp hmem with hold | hnew
    · exact hchildren child hold
    · rw [List.mem_singleton.mp hnew]
      exact ih (allConstraints_iff.mpr ⟨by simp [createPruningNode], by simp [createPruningNode]⟩)
        (Expr.allUnderAndOr_args hnot hq)
  · intro current boolop args hnot hne ih hall hq
    rw [buildPruningTree_flatten catalog partitionColumn args hnot (not_not.mp hne)]
    exact ih hall (Expr.allUnderAndOr_args hnot hq)
  · -- the clause itself becomes a valid constraint
    intro current node hnot hbool hvalid hall hq
    rw [buildPruningTree_leaf catalog partitionColumn current hnot hbool, if_pos hvalid]
    obtain ⟨hvalid', hchildren⟩ := allConstraints_iff.mp hall
    refine allConstraints_iff.mpr ⟨fun constraint hmem => ?_, hchildren⟩
    rcases List.mem_append.mp hmem with hold | hnew
    · exact hvalid' constraint hold
    · rw [List.mem_singleton.mp hnew]
      exact ⟨hvalid, Expr.allUnderAndOr_self hq⟩
  · intro current node hnot hbool hvalid hall _
    rw [buildPruningTree_leaf catalog partitionColumn current hnot hbool, if_neg hvalid]
    have hparts := allConstraints_iff.mp hall
    exact allConstraints_iff.mpr hparts
  · intro current hall _
    exact hall
  · intro current node rest ih ih' hall hargs
    rw [buildPruningTreeList]
    exact ih' (ih hall (hargs node (List.mem_cons_self ..)))
      fun arg harg => hargs arg (List.mem_cons_of_mem _ harg)

end BuildShape

section BuildMeaning

variable {catalog partitionColumn} {row : Row β}

theorem eval_andExpr_eq_some_true {args : List (Expr β)} :
    (Expr.boolExpr .andExpr args).eval catalog partitionColumn row = some true ↔
      ∀ arg ∈ args, arg.eval catalog partitionColumn row = some true := by
  simp [Expr.eval, kleeneAnd_eq_some_true, Expr.evalList_eq_map]

theorem eval_orExpr_eq_some_true {args : List (Expr β)} :
    (Expr.boolExpr .orExpr args).eval catalog partitionColumn row = some true ↔
      ∃ arg ∈ args, arg.eval catalog partitionColumn row = some true := by
  simp [Expr.eval, kleeneOr_eq_some_true, Expr.evalList_eq_map]

/-- What a clause adds to the node it is built into: an `OR` node holds once the
clause is true, an `AND` node keeps holding when it is. The induction follows the
mutual recursion of `BuildPruningTree` over a clause and the list of a connective's
arguments. -/
theorem holds_buildPruningTree :
    (∀ (current : PruningTreeNode β) (e : Expr β),
      (current.boolop = .orExpr → current.Holds catalog partitionColumn row ∨
          e.eval catalog partitionColumn row = some true →
        (buildPruningTree catalog partitionColumn current e).Holds catalog partitionColumn row) ∧
      (current.boolop ≠ .orExpr → current.Holds catalog partitionColumn row →
          e.eval catalog partitionColumn row = some true →
        (buildPruningTree catalog partitionColumn current e).Holds catalog partitionColumn row)) ∧
    ∀ (current : PruningTreeNode β) (args : List (Expr β)),
      (current.boolop = .orExpr → current.Holds catalog partitionColumn row ∨
          (∃ arg ∈ args, arg.eval catalog partitionColumn row = some true) →
        (buildPruningTreeList catalog partitionColumn current args).Holds catalog partitionColumn
          row) ∧
      (current.boolop ≠ .orExpr → current.Holds catalog partitionColumn row →
          (∀ arg ∈ args, arg.eval catalog partitionColumn row = some true) →
        (buildPruningTreeList catalog partitionColumn current args).Holds catalog partitionColumn
          row) := by
  refine buildPruningTree.mutual_induct catalog partitionColumn
    (fun current e =>
      (current.boolop = .orExpr → current.Holds catalog partitionColumn row ∨
          e.eval catalog partitionColumn row = some true →
        (buildPruningTree catalog partitionColumn current e).Holds catalog partitionColumn row) ∧
      (current.boolop ≠ .orExpr → current.Holds catalog partitionColumn row →
          e.eval catalog partitionColumn row = some true →
        (buildPruningTree catalog partitionColumn current e).Holds catalog partitionColumn row))
    (fun current args =>
      (current.boolop = .orExpr → current.Holds catalog partitionColumn row ∨
          (∃ arg ∈ args, arg.eval catalog partitionColumn row = some true) →
        (buildPruningTreeList catalog partitionColumn current args).Holds catalog partitionColumn
          row) ∧
      (current.boolop ≠ .orExpr → current.Holds catalog partitionColumn row →
          (∀ arg ∈ args, arg.eval catalog partitionColumn row = some true) →
        (buildPruningTreeList catalog partitionColumn current args).Holds catalog partitionColumn
          row))
    ?_ ?_ ?_ ?_ ?_ ?_ ?_
  · -- `NOT`: an unknown constraint
    intro current args
    rw [buildPruningTree_not]
    refine ⟨fun hor _ => (holds_iff_of_or (by exact hor)).mpr (Or.inl rfl),
      fun hand hcurrent _ => ?_⟩
    exact (holds_iff_of_ne_or (by exact hand)).mpr ((holds_iff_of_ne_or hand).mp hcurrent)
  · -- another connective: the child holds when the clause is true
    intro current boolop args hnot hne ih
    rw [buildPruningTree_child catalog partitionColumn args hnot hne]
    have hchild : (Expr.boolExpr boolop args).eval catalog partitionColumn row = some true →
        (buildPruningTreeList catalog partitionColumn (createPruningNode boolop) args).Holds
          catalog partitionColumn row := by
      intro htrue
      cases boolop with
      | notExpr => exact absurd rfl hnot
      | andExpr =>
          exact ih.2 (by simp [createPruningNode]) holds_createPruningNode_and
            (eval_andExpr_eq_some_true.mp htrue)
      | orExpr => exact ih.1 rfl (Or.inr (eval_orExpr_eq_some_true.mp htrue))
    refine ⟨fun hor h => ?_, fun hand hcurrent htrue => ?_⟩
    · rcases h with hcurrent | htrue
      · exact hcurrent.mono_or hor hor id (fun _ h => h)
          (fun _ h => List.mem_append_left _ h)
      · refine (holds_iff_of_or (by exact hor)).mpr (Or.inr (Or.inr ?_))
        exact ⟨_, List.mem_append_right _ (List.mem_singleton_self _), hchild htrue⟩
    · obtain ⟨hvalid, hchildren⟩ := (holds_iff_of_ne_or hand).mp hcurrent
      refine (holds_iff_of_ne_or (by exact hand)).mpr ⟨hvalid, fun child hmem => ?_⟩
      rcases List.mem_append.mp hmem with hold | hnew
      · exact hchildren child hold
      · rw [List.mem_singleton.mp hnew]
        exact hchild htrue
  · -- the same connective: its arguments join the current node
    intro current boolop args hnot hne ih
    have heq : current.boolop = boolop := not_not.mp hne
    rw [buildPruningTree_flatten catalog partitionColumn args hnot heq]
    refine ⟨fun hor h => ih.1 hor ?_, fun hand hcurrent htrue => ih.2 hand hcurrent ?_⟩
    · rw [← heq, hor] at h
      exact h.imp_right eval_orExpr_eq_some_true.mp
    · cases boolop with
      | notExpr => exact absurd rfl hnot
      | orExpr => exact absurd heq hand
      | andExpr => exact eval_andExpr_eq_some_true.mp htrue
  · -- a valid constraint
    intro current node hnot hbool hvalid
    rw [buildPruningTree_leaf catalog partitionColumn current hnot hbool, if_pos hvalid]
    refine ⟨fun hor h => ?_, fun hand hcurrent htrue => ?_⟩
    · rcases h with hcurrent | htrue
      · exact hcurrent.mono_or hor hor id (fun _ h => List.mem_append_left _ h) (fun _ h => h)
      · refine (holds_iff_of_or (by exact hor)).mpr (Or.inr (Or.inl ?_))
        exact ⟨node, List.mem_append_right _ (List.mem_singleton_self _), htrue⟩
    · obtain ⟨hvalid', hchildren⟩ := (holds_iff_of_ne_or hand).mp hcurrent
      refine (holds_iff_of_ne_or (by exact hand)).mpr ⟨fun constraint hmem => ?_, hchildren⟩
      rcases List.mem_append.mp hmem with hold | hnew
      · exact hvalid' constraint hold
      · rw [List.mem_singleton.mp hnew]
        exact htrue
  · -- an unknown constraint
    intro current node hnot hbool hvalid
    rw [buildPruningTree_leaf catalog partitionColumn current hnot hbool, if_neg hvalid]
    refine ⟨fun hor _ => (holds_iff_of_or (by exact hor)).mpr (Or.inl rfl),
      fun hand hcurrent _ => ?_⟩
    exact (holds_iff_of_ne_or (by exact hand)).mpr ((holds_iff_of_ne_or hand).mp hcurrent)
  · intro current
    refine ⟨fun _ h => ?_, fun _ hcurrent _ => hcurrent⟩
    simpa [buildPruningTreeList] using h
  · -- the arguments one after another; the node keeps its connective
    intro current node rest ih ih'
    have hop := (boolop_buildPruningTree catalog partitionColumn).1 current node
    rw [buildPruningTreeList]
    refine ⟨fun hor h => ?_, fun hand hcurrent hall => ?_⟩
    · rcases h with hcurrent | ⟨arg, hmem, htrue⟩
      · exact ih'.1 (hop.trans hor) (Or.inl (ih.1 hor (Or.inl hcurrent)))
      · rcases List.mem_cons.mp hmem with rfl | hrest
        · exact ih'.1 (hop.trans hor) (Or.inl (ih.1 hor (Or.inr htrue)))
        · exact ih'.1 (hop.trans hor) (Or.inr ⟨arg, hrest, htrue⟩)
    · exact ih'.2 (hop ▸ hand) (ih.2 hand hcurrent (hall node (List.mem_cons_self ..)))
        fun arg harg => hall arg (List.mem_cons_of_mem _ harg)

/-- A row that satisfies the WHERE clause list satisfies the tree `PruneShards` builds
from it. -/
theorem holds_buildPruningTreeList_root {whereClauseList : List (Expr β)}
    (h : Satisfies catalog partitionColumn row whereClauseList) :
    (buildPruningTreeList catalog partitionColumn (createPruningNode .andExpr)
      whereClauseList).Holds catalog partitionColumn row :=
  (holds_buildPruningTree.2 _ _).2 (by simp [createPruningNode]) holds_createPruningNode_and h

end BuildMeaning


/-! ### Simplifying the tree -/

section Simplify

theorem simplifyPruningTree_eq (node : PruningTreeNode β) :
    simplifyPruningTree node =
      simplifyChildren { node with childBooleanNodes := [] } node.childBooleanNodes := by
  obtain ⟨_, _, _, _⟩ := node
  rfl

theorem simplifyChildren_cons (node child : PruningTreeNode β) (rest : List (PruningTreeNode β)) :
    simplifyChildren node (child :: rest) =
      simplifyChildren
        (if constraintCount (simplifyPruningTree child) ≤ 1 then
          mergeChild node (simplifyPruningTree child)
        else { node with childBooleanNodes := node.childBooleanNodes ++ [simplifyPruningTree child] })
        rest :=
  rfl

/-- A sturdy node with at most one constraint has no children: it is a valid
constraint or an unknown one, and nothing else. -/
theorem PruningTreeNode.Sturdy.of_constraintCount_le_one {node : PruningTreeNode β}
    (hsturdy : node.Sturdy) (hcount : constraintCount node ≤ 1) :
    node.childBooleanNodes = [] ∧ node.validConstraints.length ≤ 1 ∧
      (0 < node.validConstraints.length ∨ node.hasInvalidConstraints = true) := by
  unfold constraintCount at hcount
  unfold Sturdy at hsturdy
  cases hinvalid : node.hasInvalidConstraints with
  | true =>
      rw [hinvalid, if_pos rfl] at hcount
      exact ⟨List.eq_nil_of_length_eq_zero (by omega), by omega, Or.inr rfl⟩
  | false =>
      rw [hinvalid] at hcount hsturdy
      simp only [Bool.false_eq_true, if_false, add_zero, or_false] at hcount hsturdy
      exact ⟨List.eq_nil_of_length_eq_zero (by omega), by omega, Or.inl (by omega)⟩

theorem boolop_simplifyPruningTree (node : PruningTreeNode β) :
    (simplifyPruningTree node).boolop = node.boolop := by
  refine (simplifyPruningTree.mutual_induct
    (fun node => (simplifyPruningTree node).boolop = node.boolop)
    (fun node children => (simplifyChildren node children).boolop = node.boolop)
    ?_ ?_ ?_).1 node
  · intro boolop hasInvalidConstraints validConstraints childBooleanNodes ih
    exact ih
  · intro node
    rfl
  · intro node child rest
    dsimp only
    intro _ ih
    rw [simplifyChildren_cons]
    refine ih.trans ?_
    split_ifs <;> rfl

/-- Simplifying a sturdy node whose descendants are sturdy leaves it sturdy. The
induction runs over `SimplifyPruningTree` and its loop over the children, which either
keeps a child or merges its one constraint into the node. -/
theorem sturdy_simplifyPruningTree :
    (∀ node : PruningTreeNode β, node.Sturdy → node.Below Sturdy →
      (simplifyPruningTree node).Sturdy) ∧
    ∀ (node : PruningTreeNode β) (children : List (PruningTreeNode β)),
      (∀ child ∈ children, child.Sturdy ∧ child.Below Sturdy) →
      (0 < (simplifyChildren node children).validConstraints.length ∨
          (simplifyChildren node children).hasInvalidConstraints = true) ∨
        ((simplifyChildren node children).childBooleanNodes.length =
            node.childBooleanNodes.length + children.length ∧
          (simplifyChildren node children).validConstraints.length =
            node.validConstraints.length ∧
          (simplifyChildren node children).hasInvalidConstraints = node.hasInvalidConstraints) := by
  refine simplifyPruningTree.mutual_induct
    (fun node => node.Sturdy → node.Below Sturdy → (simplifyPruningTree node).Sturdy)
    (fun node children => (∀ child ∈ children, child.Sturdy ∧ child.Below Sturdy) →
      (0 < (simplifyChildren node children).validConstraints.length ∨
          (simplifyChildren node children).hasInvalidConstraints = true) ∨
        ((simplifyChildren node children).childBooleanNodes.length =
            node.childBooleanNodes.length + children.length ∧
          (simplifyChildren node children).validConstraints.length =
            node.validConstraints.length ∧
          (simplifyChildren node children).hasInvalidConstraints = node.hasInvalidConstraints))
    ?_ ?_ ?_
  · intro boolop hasInvalidConstraints validConstraints childBooleanNodes ih hsturdy hbelow
    rcases ih (below_iff.mp hbelow) with hflat | ⟨hchildren, hvalid, hinvalid⟩
    · exact Or.inr hflat
    · -- nothing merged: the node keeps what made it sturdy
      unfold Sturdy at hsturdy ⊢
      simp only [List.length_nil, zero_add] at hchildren
      rw [simplifyPruningTree_eq]
      rw [hchildren, hvalid, hinvalid]
      exact hsturdy
  · intro node _
    exact Or.inr ⟨by simp [simplifyChildren], rfl, rfl⟩
  · intro node child rest
    dsimp only
    intro ih ih' hchildren
    have hchild := hchildren child (List.mem_cons_self ..)
    have hsturdy := ih hchild.1 hchild.2
    rw [simplifyChildren_cons]
    rcases ih' fun c hc => hchildren c (List.mem_cons_of_mem _ hc) with hflat | ⟨hlen, hvalid, hinvalid⟩
    · exact Or.inl hflat
    split_ifs at hlen hvalid hinvalid ⊢ with hcount
    · -- a merged child brings a valid constraint or an unknown one
      obtain ⟨-, -, hone⟩ := hsturdy.of_constraintCount_le_one hcount
      left
      rw [hvalid, hinvalid]
      rcases hone with hpos | hflag
      · left
        simp only [mergeChild, List.length_append]
        omega
      · right
        simp [mergeChild, hflag]
    · right
      refine ⟨?_, hvalid, hinvalid⟩
      rw [hlen]
      simp only [List.length_append, List.length_cons, List.length_nil]
      omega

/-- After simplification every node below the root has two constraints or more. -/
theorem below_constraintCount_simplifyPruningTree (node : PruningTreeNode β) :
    (simplifyPruningTree node).Below fun child => 1 < constraintCount child := by
  refine (simplifyPruningTree.mutual_induct
    (fun node => (simplifyPruningTree node).Below fun child => 1 < constraintCount child)
    (fun node children => (node.Below fun child => 1 < constraintCount child) →
      (simplifyChildren node children).Below fun child => 1 < constraintCount child)
    ?_ ?_ ?_).1 node
  · intro boolop hasInvalidConstraints validConstraints childBooleanNodes ih
    exact ih (below_iff.mpr fun _ hmem => nomatch hmem)
  · intro node hbelow
    exact hbelow
  · intro node child rest
    dsimp only
    intro ih ih' hbelow
    rw [simplifyChildren_cons]
    refine ih' ?_
    split_ifs with hcount
    · -- merging leaves the children as they were
      have hchildren := below_iff.mp hbelow
      exact below_iff.mpr hchildren
    · refine below_iff.mpr fun c hmem => ?_
      rcases List.mem_append.mp hmem with hold | hnew
      · exact below_iff.mp hbelow c hold
      · rw [List.mem_singleton.mp hnew]
        exact ⟨Nat.lt_of_not_le hcount, ih⟩

/-- Simplification keeps every valid constraint of the tree, and adds none. -/
theorem allConstraints_simplifyPruningTree {q : Expr β → Prop} {node : PruningTreeNode β}
    (h : node.AllConstraints q) : (simplifyPruningTree node).AllConstraints q := by
  refine (simplifyPruningTree.mutual_induct
    (fun node => node.AllConstraints q → (simplifyPruningTree node).AllConstraints q)
    (fun node children => node.AllConstraints q → (∀ child ∈ children, child.AllConstraints q) →
      (simplifyChildren node children).AllConstraints q)
    ?_ ?_ ?_).1 node h
  · intro boolop hasInvalidConstraints validConstraints childBooleanNodes ih hall
    obtain ⟨hvalid, hchildren⟩ := allConstraints_iff.mp hall
    exact ih (allConstraints_iff.mpr ⟨hvalid, fun _ hmem => nomatch hmem⟩) hchildren
  · intro node hall _
    exact hall
  · intro node child rest
    dsimp only
    intro ih ih' hall hchildren
    have hchild := ih (hchildren child (List.mem_cons_self ..))
    rw [simplifyChildren_cons]
    refine ih' ?_ fun c hc => hchildren c (List.mem_cons_of_mem _ hc)
    obtain ⟨hvalid, hold⟩ := allConstraints_iff.mp hall
    split_ifs
    · -- the merged child's constraints join the node's
      refine allConstraints_iff.mpr ⟨fun constraint hmem => ?_, hold⟩
      rcases List.mem_append.mp hmem with hmem | hmem
      · exact hvalid constraint hmem
      · exact (allConstraints_iff.mp hchild).1 constraint hmem
    · refine allConstraints_iff.mpr ⟨hvalid, fun c hmem => ?_⟩
      rcases List.mem_append.mp hmem with hmem | hnew
      · exact hold c hmem
      · rw [List.mem_singleton.mp hnew]
        exact hchild

section SimplifyMeaning

variable {catalog : OperatorCatalog β} {partitionColumn : Var} {row : Row β}

/-- A merged child's one constraint says in an `OR` node what the child said. -/
theorem holds_mergeChild_of_or {parent child : PruningTreeNode β}
    (hor : parent.boolop = .orExpr) (hsturdy : child.Sturdy) (hcount : constraintCount child ≤ 1)
    (h : parent.Holds catalog partitionColumn row ∨ child.Holds catalog partitionColumn row) :
    (mergeChild parent child).Holds catalog partitionColumn row := by
  obtain ⟨hnil, -, hone⟩ := hsturdy.of_constraintCount_le_one hcount
  rcases h with hparent | hchild
  · exact hparent.mono_or hor hor (fun h => by simp [mergeChild, h])
      (fun _ h => List.mem_append_left _ h) (fun _ h => h)
  refine (holds_iff_of_or (by exact hor)).mpr ?_
  by_cases hchildOr : child.boolop = .orExpr
  · rcases (holds_iff_of_or hchildOr).mp hchild with hinvalid | ⟨constraint, hmem, htrue⟩ |
        ⟨grandchild, hmem, -⟩
    · exact Or.inl (by simp [mergeChild, hinvalid])
    · exact Or.inr (Or.inl ⟨constraint, List.mem_append_right _ hmem, htrue⟩)
    · rw [hnil] at hmem
      nomatch hmem
  · -- an `AND` child: its one valid constraint is true, or it has an unknown one
    have hvalid := ((holds_iff_of_ne_or hchildOr).mp hchild).1
    rcases hone with hpos | hinvalid
    · obtain ⟨constraint, hmem⟩ := List.exists_mem_of_length_pos hpos
      exact Or.inr (Or.inl ⟨constraint, List.mem_append_right _ hmem, hvalid constraint hmem⟩)
    · exact Or.inl (by simp [mergeChild, hinvalid])

/-- A merged child's one constraint says in an `AND` node what the child said. -/
theorem holds_mergeChild_of_ne_or {parent child : PruningTreeNode β}
    (hand : parent.boolop ≠ .orExpr) (hsturdy : child.Sturdy) (hcount : constraintCount child ≤ 1)
    (hparent : parent.Holds catalog partitionColumn row)
    (hchild : child.Holds catalog partitionColumn row) :
    (mergeChild parent child).Holds catalog partitionColumn row := by
  obtain ⟨hvalid, hchildren⟩ := (holds_iff_of_ne_or hand).mp hparent
  obtain ⟨-, hle, -⟩ := hsturdy.of_constraintCount_le_one hcount
  -- every valid constraint of the child is true: an `OR` child has at most one
  have hchildValid : ∀ constraint ∈ child.validConstraints,
      constraint.eval catalog partitionColumn row = some true := by
    by_cases hchildOr : child.boolop = .orExpr
    · intro constraint hmem
      have hcount' := hcount
      unfold constraintCount at hcount'
      rcases (holds_iff_of_or hchildOr).mp hchild with hinvalid | ⟨other, hother, htrue⟩ |
          ⟨grandchild, hmem', -⟩
      · simp only [hinvalid, if_true] at hcount'
        exact absurd (List.length_pos_of_mem hmem) (by omega)
      · -- the one valid constraint is the true one
        obtain ⟨only, honly⟩ : ∃ only, child.validConstraints = [only] :=
          match hval : child.validConstraints, hle, hmem with
          | [only], _, _ => ⟨only, rfl⟩
          | _ :: _ :: _, hle, _ => by simp at hle
        rw [honly, List.mem_singleton] at hmem hother
        rw [hmem, ← hother]
        exact htrue
      · have hvalidPos := List.length_pos_of_mem hmem
        have hchildPos := List.length_pos_of_mem hmem'
        omega
    · exact ((holds_iff_of_ne_or hchildOr).mp hchild).1
  refine (holds_iff_of_ne_or (by exact hand)).mpr ⟨fun constraint hmem => ?_, hchildren⟩
  rcases List.mem_append.mp hmem with hmem | hmem
  · exact hvalid constraint hmem
  · exact hchildValid constraint hmem

/-- Simplification keeps the meaning of a tree whose nodes below the root are sturdy. -/
theorem holds_simplifyPruningTree {node : PruningTreeNode β} (hbelow : node.Below Sturdy)
    (h : node.Holds catalog partitionColumn row) :
    (simplifyPruningTree node).Holds catalog partitionColumn row := by
  refine (simplifyPruningTree.mutual_induct
    (fun node => node.Below Sturdy → node.Holds catalog partitionColumn row →
      (simplifyPruningTree node).Holds catalog partitionColumn row)
    (fun node children => (∀ child ∈ children, child.Sturdy ∧ child.Below Sturdy) →
      (node.boolop = .orExpr → node.Holds catalog partitionColumn row ∨
          (∃ child ∈ children, child.Holds catalog partitionColumn row) →
        (simplifyChildren node children).Holds catalog partitionColumn row) ∧
      (node.boolop ≠ .orExpr → node.Holds catalog partitionColumn row →
          (∀ child ∈ children, child.Holds catalog partitionColumn row) →
        (simplifyChildren node children).Holds catalog partitionColumn row))
    ?_ ?_ ?_).1 node hbelow h
  · intro boolop hasInvalidConstraints validConstraints childBooleanNodes ih hbelow h
    obtain ⟨hor, hand⟩ := ih (below_iff.mp hbelow)
    by_cases hop : boolop = .orExpr
    · -- the constraints stay with the node, the children go through the loop
      rcases (holds_iff_of_or hop).mp h with hinvalid | hvalid | hchild
      · exact hor hop (Or.inl ((holds_iff_of_or hop).mpr (Or.inl hinvalid)))
      · exact hor hop (Or.inl ((holds_iff_of_or hop).mpr (Or.inr (Or.inl hvalid))))
      · exact hor hop (Or.inr hchild)
    · obtain ⟨hvalid, hchildren⟩ := (holds_iff_of_ne_or hop).mp h
      exact hand hop ((holds_iff_of_ne_or hop).mpr ⟨hvalid, fun _ hmem => nomatch hmem⟩)
        hchildren
  · intro node _
    refine ⟨fun _ h => ?_, fun _ h _ => h⟩
    rcases h with h | ⟨_, hmem, -⟩
    · exact h
    · nomatch hmem
  · intro node child rest
    dsimp only
    intro ih ih' hchildren
    have hchild := hchildren child (List.mem_cons_self ..)
    have hsturdy := sturdy_simplifyPruningTree.1 child hchild.1 hchild.2
    have hsimplified := ih hchild.2
    obtain ⟨hor, hand⟩ := ih' fun c hc => hchildren c (List.mem_cons_of_mem _ hc)
    rw [simplifyChildren_cons]
    have hop : (if constraintCount (simplifyPruningTree child) ≤ 1 then
        mergeChild node (simplifyPruningTree child)
      else { node with
        childBooleanNodes := node.childBooleanNodes ++ [simplifyPruningTree child] }).boolop =
        node.boolop := by
      split_ifs <;> rfl
    refine ⟨fun hnode h => ?_, fun hnode hholds hall => ?_⟩
    · rcases h with hholds | ⟨c, hmem, hc⟩
      · refine hor (hop.trans hnode) (Or.inl ?_)
        split_ifs with hcount
        · exact holds_mergeChild_of_or hnode hsturdy hcount (Or.inl hholds)
        · exact hholds.mono_or hnode hnode id (fun _ h => h) (fun _ h => List.mem_append_left _ h)
      · rcases List.mem_cons.mp hmem with rfl | hrest
        · refine hor (hop.trans hnode) (Or.inl ?_)
          split_ifs with hcount
          · exact holds_mergeChild_of_or hnode hsturdy hcount (Or.inr (hsimplified hc))
          · refine (holds_iff_of_or (by exact hnode)).mpr (Or.inr (Or.inr ?_))
            exact ⟨_, List.mem_append_right _ (List.mem_singleton_self _), hsimplified hc⟩
        · exact hor (hop.trans hnode) (Or.inr ⟨c, hrest, hc⟩)
    · refine hand (fun h => hnode (hop.symm.trans h)) ?_
        fun c hc => hall c (List.mem_cons_of_mem _ hc)
      have hchildHolds := hsimplified (hall child (List.mem_cons_self ..))
      split_ifs with hcount
      · exact holds_mergeChild_of_ne_or hnode hsturdy hcount hholds hchildHolds
      · obtain ⟨hvalid, hold⟩ := (holds_iff_of_ne_or hnode).mp hholds
        refine (holds_iff_of_ne_or (by exact hnode)).mpr ⟨hvalid, fun c hmem => ?_⟩
        rcases List.mem_append.mp hmem with hmem | hnew
        · exact hold c hmem
        · rw [List.mem_singleton.mp hnew]
          exact hchildHolds

end SimplifyMeaning

end Simplify

/-! ## The tree the pruner walks -/

section PrunedTree

variable {catalog : OperatorCatalog β} {partitionColumn : Var} {row : Row β}

/-- The tree `PruneShards` walks, for a WHERE clause list whose `AND`s and `OR`s have two
arguments or more: a row that satisfies the list satisfies the tree, each valid
constraint of the tree is one `IsValidConditionNode` accepts, and every node below the
root keeps more than one constraint. -/
theorem simplifiedPruningTree_spec {whereClauseList : List (Expr β)}
    (htwo : ∀ e ∈ whereClauseList, e.allUnderAndOr Expr.connectiveHasTwoArgs = true)
    (h : Satisfies catalog partitionColumn row whereClauseList) :
    (simplifyPruningTree (buildPruningTreeList catalog partitionColumn
        (createPruningNode .andExpr) whereClauseList)).Holds catalog partitionColumn row ∧
      (simplifyPruningTree (buildPruningTreeList catalog partitionColumn
        (createPruningNode .andExpr) whereClauseList)).AllConstraints
          (fun c => isValidConditionNode catalog partitionColumn c = true ∧
            c.connectiveHasTwoArgs = true) ∧
      (simplifyPruningTree (buildPruningTreeList catalog partitionColumn
        (createPruningNode .andExpr) whereClauseList)).Below
          fun child => 1 < constraintCount child := by
  have hroot : (createPruningNode .andExpr : PruningTreeNode β).Below PruningTreeNode.Sturdy := by
    simp [createPruningNode, PruningTreeNode.Below, PruningTreeNode.BelowEach]
  have hbelow := (below_sturdy_buildPruningTree catalog partitionColumn).2 _ whereClauseList
    hroot htwo
  have hrootConstraints : (createPruningNode .andExpr : PruningTreeNode β).AllConstraints
      (fun c => isValidConditionNode catalog partitionColumn c ∧ Expr.connectiveHasTwoArgs c) := by
    simp [createPruningNode, PruningTreeNode.AllConstraints, PruningTreeNode.Below,
      PruningTreeNode.BelowEach]
  have hconstraints := (allConstraints_buildPruningTree catalog partitionColumn
    Expr.connectiveHasTwoArgs).2 _ whereClauseList hrootConstraints htwo
  exact ⟨holds_simplifyPruningTree hbelow (holds_buildPruningTreeList_root h),
    allConstraints_simplifyPruningTree hconstraints, below_constraintCount_simplifyPruningTree _⟩

/-- An equality catalog over `Int`, and the clause `col = 7` on column `(1, 1)`. -/
def equalityCatalog : OperatorCatalog Int :=
  ⟨fun _ => [.equal], fun _ => true, fun _ a b => decide (a = b)⟩

theorem simplifiedPruningTree_spec_equality :
    (∀ e ∈ [Expr.opExpr 0 [.var ⟨1, 1⟩, .const ⟨(7 : Int), false⟩]],
        e.allUnderAndOr Expr.connectiveHasTwoArgs = true) ∧
      Satisfies equalityCatalog ⟨1, 1⟩ ⟨7, fun _ => none⟩
        [Expr.opExpr 0 [.var ⟨1, 1⟩, .const ⟨(7 : Int), false⟩]] ∧
      (simplifyPruningTree (buildPruningTreeList equalityCatalog ⟨1, 1⟩
          (createPruningNode .andExpr) [Expr.opExpr 0 [.var ⟨1, 1⟩, .const ⟨(7 : Int), false⟩]])).Holds
        equalityCatalog ⟨1, 1⟩ ⟨7, fun _ => none⟩ ∧
      (simplifyPruningTree (buildPruningTreeList equalityCatalog ⟨1, 1⟩
          (createPruningNode .andExpr) [Expr.opExpr 0 [.var ⟨1, 1⟩, .const ⟨(7 : Int), false⟩]])).AllConstraints
        (fun c => isValidConditionNode equalityCatalog ⟨1, 1⟩ c = true ∧
          c.connectiveHasTwoArgs = true) ∧
      (simplifyPruningTree (buildPruningTreeList equalityCatalog ⟨1, 1⟩
          (createPruningNode .andExpr) [Expr.opExpr 0 [.var ⟨1, 1⟩, .const ⟨(7 : Int), false⟩]])).Below
        fun child => 1 < constraintCount child := by
  have htwo : ∀ e ∈ [Expr.opExpr 0 [.var ⟨1, 1⟩, .const ⟨(7 : Int), false⟩]],
      e.allUnderAndOr Expr.connectiveHasTwoArgs = true := by decide
  have hsatisfies : Satisfies equalityCatalog ⟨1, 1⟩ ⟨7, fun _ => none⟩
      [Expr.opExpr 0 [.var ⟨1, 1⟩, .const ⟨(7 : Int), false⟩]] := by
    intro e he
    rw [List.mem_singleton.mp he]
    decide
  exact ⟨htwo, hsatisfies, simplifiedPruningTree_spec htwo hsatisfies⟩

end PrunedTree

end Citus.Shard
