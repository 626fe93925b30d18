import Mathlib

/-!
# WHERE clauses and what they mean

The shard pruner (`shard_pruning.c`) reads a query's WHERE clause list as
PostgreSQL's planner hands it over: boolean expressions over operator clauses,
`= ANY (array)` clauses, constants and anything else. This module gives that
syntax, the catalog facts the pruner looks up about an operator, and the value of
a clause on a row in SQL's three-valued logic.

The value is the model's statement of what a clause means; only the pruner itself
is translated from the source. It interprets the connectives `AND` and `OR`, boolean
constants, and comparisons of the partition column with a constant (in either
order, and against each element of an array). Every other clause, `NOT` included,
has whatever value the row gives it, so that results over all rows hold for
arbitrary other conditions.

## Implementation notes

* Constants compared with the partition column have the column's type `β`; the
  coercion of a constant of another type (`TransformPartitionRestrictionValue`) is
  not modelled, nor are the implicit coercions `strip_implicit_coercions` removes.
* A `Const` keeps its `Datum` next to `constisnull`, as PostgreSQL's node does.
-/

namespace Citus.Shard

/-- `BoolExprType`. -/
inductive BoolExprType
  | andExpr
  | orExpr
  | notExpr
  deriving DecidableEq, Repr

/-- The btree strategies `get_op_btree_interpretation` reports, with
`ROWCOMPARE_NE` for an operator whose negator is a btree equality. -/
inductive StrategyNumber
  | less
  | lessEqual
  | equal
  | greaterEqual
  | greater
  | rowCompareNe
  deriving DecidableEq, Repr

/-- Whether a comparison result satisfies a strategy's operator. -/
def StrategyNumber.test : StrategyNumber → Ordering → Bool
  | .less, o => o == .lt
  | .lessEqual, o => o != .gt
  | .equal, o => o == .eq
  | .greaterEqual, o => o != .lt
  | .greater, o => o == .gt
  | .rowCompareNe, o => o != .eq

/-- The relation a strategy's operator computes on its left and right operand. -/
def StrategyNumber.Holds {β : Type} [LinearOrder β] : StrategyNumber → β → β → Prop
  | .less, a, b => a < b
  | .lessEqual, a, b => a ≤ b
  | .equal, a, b => a = b
  | .greaterEqual, a, b => b ≤ a
  | .greater, a, b => b < a
  | .rowCompareNe, a, b => a ≠ b

instance StrategyNumber.decidableHolds {β : Type} [LinearOrder β] (s : StrategyNumber) (a b : β) :
    Decidable (s.Holds a b) :=
  match s with
  | .less => inferInstanceAs (Decidable (a < b))
  | .lessEqual => inferInstanceAs (Decidable (a ≤ b))
  | .equal => inferInstanceAs (Decidable (a = b))
  | .greaterEqual => inferInstanceAs (Decidable (b ≤ a))
  | .greater => inferInstanceAs (Decidable (b < a))
  | .rowCompareNe => inferInstanceAs (Decidable (a ≠ b))

theorem StrategyNumber.test_compare {β : Type} [LinearOrder β] (s : StrategyNumber) (a b : β) :
    s.test (compare a b) = decide (s.Holds a b) := by
  rcases lt_trichotomy a b with h | rfl | h
  · cases s <;> simp [test, Holds, compare_lt_iff_lt.mpr h, h, h.le, h.ne, not_le_of_gt h, lt_asymm h]
  · cases s <;> simp [test, Holds]
  · cases s <;> simp [test, Holds, compare_gt_iff_gt.mpr h, h, h.le, h.ne', not_le_of_gt h, lt_asymm h]

/-- A `Var` node as `equal()` compares it: range table entry and attribute. -/
structure Var where
  varno : Nat
  varattno : Int
  deriving DecidableEq, Repr

/-- `RESERVED_HASHED_COLUMN_ID`, that is `MaxAttrNumber`: the attribute of the
pseudo-column Citus compares with shard hash bounds. -/
def reservedHashedColumnId : Int := 32767

/-- A `Const` node of the partition column's type. -/
structure Const (β : Type) where
  constvalue : β
  constisnull : Bool
  deriving DecidableEq, Repr

/-- The expression nodes the pruner distinguishes. -/
inductive Expr (β : Type)
  | var (v : Var)
  | const (c : Const β)
  | boolConst (constvalue constisnull : Bool)
  /-- An array constant; its elements as `array_iterate` returns them. -/
  | arrayConst (elements : List (Option β)) (constisnull : Bool)
  | opExpr (opno : Nat) (args : List (Expr β))
  | scalarArrayOpExpr (opno : Nat) (useOr : Bool) (args : List (Expr β))
  | boolExpr (boolop : BoolExprType) (args : List (Expr β))
  /-- Any other node. -/
  | other (id : Nat)

/-- What the pruner asks the catalog about an operator, and how the operator
computes on two non-null values. -/
structure OperatorCatalog (β : Type) where
  /-- `get_op_btree_interpretation`: the operator's strategy in each btree family. -/
  btreeInterpretation : Nat → List StrategyNumber
  /-- `OperatorImplementsEquality`. -/
  implementsEquality : Nat → Bool
  /-- The operator's function. -/
  apply : Nat → β → β → Bool

/-- PostgreSQL's contract for operator families, over the column type's btree
comparator: an operator computes what each of its btree strategies says, and an
equality operator computes equality. -/
structure OperatorCatalog.Lawful {β : Type} [LinearOrder β] (catalog : OperatorCatalog β) :
    Prop where
  apply_of_mem : ∀ {opno s}, s ∈ catalog.btreeInterpretation opno →
    ∀ a b, catalog.apply opno a b = s.test (compare a b)
  apply_of_implementsEquality : ∀ {opno}, catalog.implementsEquality opno = true →
    ∀ a b, catalog.apply opno a b = decide (a = b)

section ThreeValued

/-- SQL's `AND` over the arguments' values: false if one is false, else unknown if
one is unknown. -/
def kleeneAnd (vs : List (Option Bool)) : Option Bool :=
  if some false ∈ vs then some false else if none ∈ vs then none else some true

/-- SQL's `OR` over the arguments' values: true if one is true, else unknown if
one is unknown. -/
def kleeneOr (vs : List (Option Bool)) : Option Bool :=
  if some true ∈ vs then some true else if none ∈ vs then none else some false

theorem kleeneAnd_eq_some_true {vs : List (Option Bool)} :
    kleeneAnd vs = some true ↔ ∀ v ∈ vs, v = some true := by
  constructor
  · intro h v hv
    have hfalse : some false ∉ vs := fun hf => by simp [kleeneAnd, hf] at h
    have hnone : none ∉ vs := fun hn => by simp [kleeneAnd, hfalse, hn] at h
    match v, hv with
    | some true, _ => rfl
    | some false, hv => exact absurd hv hfalse
    | none, hv => exact absurd hv hnone
  · intro h
    have hfalse : some false ∉ vs := fun hv => by simpa using h _ hv
    have hnone : none ∉ vs := fun hv => by simpa using h _ hv
    simp [kleeneAnd, hfalse, hnone]

theorem kleeneOr_eq_some_true {vs : List (Option Bool)} :
    kleeneOr vs = some true ↔ some true ∈ vs := by
  unfold kleeneOr
  split_ifs <;> simp_all

end ThreeValued

/-- A row as a WHERE clause sees it: the partition column's value, which is not
NULL, and the value of every clause the model does not interpret. -/
structure Row (β : Type) where
  partitionValue : β
  other : Expr β → Option Bool

section Eval

variable {β : Type} (catalog : OperatorCatalog β) (partitionColumn : Var) (row : Row β)

/-- A strict operator applied to the row's partition value and a constant, in
the order the clause writes them. -/
def Row.compareWith (opno : Nat) (c : Const β) (columnFirst : Bool) : Option Bool :=
  if c.constisnull then none
  else if columnFirst then some (catalog.apply opno row.partitionValue c.constvalue)
  else some (catalog.apply opno c.constvalue row.partitionValue)

mutual

/-- The value of a clause on a row; `none` is NULL. -/
def Expr.eval : Expr β → Option Bool
  | .boolExpr .andExpr args => kleeneAnd (Expr.evalList args)
  | .boolExpr .orExpr args => kleeneOr (Expr.evalList args)
  | .boolConst constvalue constisnull => if constisnull then none else some constvalue
  | e@(.opExpr opno [.var v, .const c]) =>
      if v = partitionColumn then row.compareWith catalog opno c true else row.other e
  | e@(.opExpr opno [.const c, .var v]) =>
      if v = partitionColumn then row.compareWith catalog opno c false else row.other e
  | e@(.scalarArrayOpExpr opno useOr [.var v, .arrayConst elements constisnull]) =>
      if v = partitionColumn then
        if constisnull then none
        else
          -- a NULL element compares as NULL; `ANY` is an `OR`, `ALL` an `AND`
          let vs := elements.map fun element =>
            element.map fun value => catalog.apply opno row.partitionValue value
          if useOr then kleeneOr vs else kleeneAnd vs
      else row.other e
  | e => row.other e

/-- `Expr.eval` on each clause of a list. -/
def Expr.evalList : List (Expr β) → List (Option Bool)
  | [] => []
  | e :: es => e.eval :: Expr.evalList es

end

theorem Expr.evalList_eq_map (es : List (Expr β)) :
    Expr.evalList catalog partitionColumn row es =
      es.map (Expr.eval catalog partitionColumn row) := by
  induction es with
  | nil => rfl
  | cons e es ih => simp [Expr.evalList, ih]

/-- A row satisfies a WHERE clause list when every clause is true on it. -/
def Satisfies (whereClauseList : List (Expr β)) : Prop :=
  ∀ e ∈ whereClauseList, e.eval catalog partitionColumn row = some true

end Eval

end Citus.Shard
