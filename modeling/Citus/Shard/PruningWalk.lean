import Citus.Shard.PruningMeaning
import Citus.Shard.PruningInstance
import Citus.Lib.Worklist
import Mathlib

/-!
# The walk that turns the pruning tree into instances

`PrunableExpressions` reads the simplified pruning tree as a disjunction of
conjunctions. The walk of an instance adds the restrictions of an `AND` node to it and,
at every `OR` node, queues the instance once per disjunct; each queued instance is later
copied and its walk continues at its disjunct. An instance holds a subset of the
constraints of its conjunction, so it over-approximates it, which is what pruning needs.

The loop over the queue finishes within its fuel
(`prunableExpressions_pendingInstances`): every walk queues exactly `pendingWeight` of its
node, counted over the instances it queues, and every round takes one off the queue.
Each piece of the walk keeps a frame (`WalkFrame`): it writes only the current instance,
and the lists of listed and queued instances only grow, by the current one.

An instance admits a row (`PruningInstance.Admits`) when the row's partition value meets
each of its bounds and the instance is not known to be false. The restrictions the walk
adds keep this for a row that satisfies them, as long as the partition column stands on
the left of its comparison (`Admits.addPartitionKeyRestrictionToInstance`).
-/

namespace Citus.Shard

variable {β : Type}

/-! ### What an instance says of a row -/

section Admits

variable [LinearOrder β]

/-- The partition value `v` meets every bound of the instance, which is not known to be
false and holds no restriction on the hashed pseudo-column. -/
structure PruningInstance.Admits (v : β) (prune : PruningInstance β) : Prop where
  evaluatesToFalse_eq : prune.evaluatesToFalse = false
  less : ∀ c, prune.lessConsts = some c → v < c.constvalue
  lessEqual : ∀ c, prune.lessEqualConsts = some c → v ≤ c.constvalue
  equal : ∀ c, prune.equalConsts = some c → v = c.constvalue
  greaterEqual : ∀ c, prune.greaterEqualConsts = some c → c.constvalue ≤ v
  greater : ∀ c, prune.greaterConsts = some c → c.constvalue < v
  hashedEqualConsts_eq : prune.hashedEqualConsts = none

namespace PruningInstance

variable {v : β} {prune : PruningInstance β}

theorem admits_default (v : β) : (default : PruningInstance β).Admits v :=
  ⟨rfl, fun _ h => (nomatch h), fun _ h => (nomatch h), fun _ h => (nomatch h),
    fun _ h => (nomatch h), fun _ h => (nomatch h), rfl⟩

/-- The flags that say where the instance is listed or queued say nothing of the row. -/
theorem Admits.setFlags (h : prune.Admits v) (added queued : Bool) :
    { prune with addedToPruningInstances := added, isPartial := queued }.Admits v :=
  ⟨h.1, h.2, h.3, h.4, h.5, h.6, h.7⟩

theorem Admits.copyPartialPruningInstance (h : prune.Admits v) :
    (copyPartialPruningInstance prune).Admits v :=
  h.setFlags false false

theorem tightenRestriction_eq_some {keep : Ordering} {constantClause stored' : Const β}
    {stored : Option (Const β)} (h : tightenRestriction keep constantClause stored = some stored') :
    stored' = constantClause ∨ stored = some stored' := by
  unfold tightenRestriction at h
  split at h
  · exact Or.inl (Option.some.inj h).symm
  · split_ifs at h
    · exact Or.inl (Option.some.inj h).symm
    · exact Or.inr h

/-- A strategy of the operator that holds of the partition value and the constant keeps
the instance admitting the row. -/
theorem Admits.addStrategyRestriction (h : prune.Admits v) {constantClause : Const β}
    {s : StrategyNumber} (hs : s.Holds v constantClause.constvalue) :
    (addStrategyRestriction constantClause prune s).Admits v := by
  cases s with
  | less =>
      refine ⟨h.1, fun c hc => ?_, h.3, h.4, h.5, h.6, h.7⟩
      rcases tightenRestriction_eq_some hc with rfl | hstored
      · exact hs
      · exact h.less c hstored
  | lessEqual =>
      refine ⟨h.1, h.2, fun c hc => ?_, h.4, h.5, h.6, h.7⟩
      rcases tightenRestriction_eq_some hc with rfl | hstored
      · exact hs
      · exact h.lessEqual c hstored
  | equal =>
      -- a second equality on the same value leaves the instance as it was
      simp only [Citus.Shard.addStrategyRestriction]
      split
      · next hnone =>
          refine ⟨h.1, h.2, h.3, fun c hc => ?_, h.5, h.6, h.7⟩
          rw [← Option.some.inj hc]
          exact hs
      · next stored hstored =>
          have hsame : compare constantClause.constvalue stored.constvalue = .eq := by
            rw [compare_eq_iff_eq, ← h.equal stored hstored]
            exact hs.symm
          rw [if_neg (not_not.mpr hsame)]
          exact h
  | greaterEqual =>
      refine ⟨h.1, h.2, h.3, h.4, fun c hc => ?_, h.6, h.7⟩
      rcases tightenRestriction_eq_some hc with rfl | hstored
      · exact hs
      · exact h.greaterEqual c hstored
  | greater =>
      refine ⟨h.1, h.2, h.3, h.4, h.5, fun c hc => ?_, h.7⟩
      rcases tightenRestriction_eq_some hc with rfl | hstored
      · exact hs
      · exact h.greater c hstored
  | rowCompareNe => exact h

/-- `AddPartitionKeyRestrictionToInstance` with a clause that is true of the row keeps
the instance admitting it: under the catalog's contract every btree strategy of the
operator holds of the partition value and the constant. -/
theorem Admits.addPartitionKeyRestrictionToInstance {catalog : OperatorCatalog β}
    (hlawful : catalog.Lawful) (h : prune.Admits v) {opno : Nat} {constantClause : Const β}
    (happly : constantClause.constisnull = false →
      catalog.apply opno v constantClause.constvalue = true) :
    (addPartitionKeyRestrictionToInstance catalog opno constantClause prune).Admits v := by
  unfold Citus.Shard.addPartitionKeyRestrictionToInstance
  split_ifs with hnull
  · exact h
  · have happly' := happly (by simpa using hnull)
    -- the fold over the strategies keeps the row admitted, one strategy at a time
    have hfold : ∀ (strategies : List StrategyNumber), (∀ s ∈ strategies,
        s ∈ catalog.btreeInterpretation opno) → ∀ prune : PruningInstance β, prune.Admits v →
        (strategies.foldl (Citus.Shard.addStrategyRestriction constantClause) prune).Admits v := by
      intro strategies
      induction strategies with
      | nil => exact fun _ _ h => h
      | cons s rest ih =>
          intro hmem prune h
          have hs : s.Holds v constantClause.constvalue := by
            have htest := hlawful.apply_of_mem (hmem s (List.mem_cons_self ..)) v
              constantClause.constvalue
            rw [happly', StrategyNumber.test_compare] at htest
            exact of_decide_eq_true htest.symm
          exact ih (fun s' hs' => hmem s' (List.mem_cons_of_mem _ hs')) _ (h.addStrategyRestriction hs)
    have hadmits := hfold _ (fun _ hs => hs) prune h
    exact ⟨hadmits.1, hadmits.2, hadmits.3, hadmits.4, hadmits.5, hadmits.6, hadmits.7⟩

end PruningInstance

end Admits

/-! ### What one piece of the walk changes -/

namespace ClauseWalkerContext

variable (context : ClauseWalkerContext β)

/-- What every piece of the walk keeps: the current instance, the other instances, and
the lists, which only grow, by the current instance. -/
structure WalkFrame (context' : ClauseWalkerContext β) : Prop where
  current_eq : context'.currentPruningInstance = context.currentPruningInstance
  length_eq : context'.instances.length = context.instances.length
  getD_of_ne : ∀ k, k ≠ context.currentPruningInstance →
    context'.instances.getD k {} = context.instances.getD k {}
  listed : ∃ extra, context'.pruningInstances = context.pruningInstances ++ extra ∧
    ∀ j ∈ extra, j = context.currentPruningInstance
  queued : ∃ queued, context'.pendingInstances = context.pendingInstances ++ queued ∧
    ∀ pending ∈ queued, pending.pruningInstance = context.currentPruningInstance

variable {context}

theorem WalkFrame.refl : WalkFrame context context :=
  ⟨rfl, rfl, fun _ _ => rfl, ⟨[], by simp, by simp⟩, ⟨[], by simp, by simp⟩⟩

theorem WalkFrame.trans {context' context'' : ClauseWalkerContext β}
    (h : WalkFrame context context') (h' : WalkFrame context' context'') :
    WalkFrame context context'' := by
  obtain ⟨extra, hextra, hextraCur⟩ := h.listed
  obtain ⟨extra', hextra', hextraCur'⟩ := h'.listed
  obtain ⟨queued, hqueued, hqueuedCur⟩ := h.queued
  obtain ⟨queued', hqueued', hqueuedCur'⟩ := h'.queued
  refine ⟨h'.current_eq.trans h.current_eq, h'.length_eq.trans h.length_eq, fun k hk => ?_,
    ⟨extra ++ extra', by rw [hextra', hextra, List.append_assoc], fun j hj => ?_⟩,
    ⟨queued ++ queued', by rw [hqueued', hqueued, List.append_assoc], fun p hp => ?_⟩⟩
  · rw [h'.getD_of_ne k (h.current_eq ▸ hk), h.getD_of_ne k hk]
  · rcases List.mem_append.mp hj with hj | hj
    · exact hextraCur j hj
    · exact (hextraCur' j hj).trans h.current_eq
  · rcases List.mem_append.mp hp with hp | hp
    · exact hqueuedCur p hp
    · exact (hqueuedCur' p hp).trans h.current_eq

theorem WalkFrame.current_lt {context' : ClauseWalkerContext β} (h : WalkFrame context context')
    (hcur : context.currentPruningInstance < context.instances.length) :
    context'.currentPruningInstance < context'.instances.length := by
  rw [h.current_eq, h.length_eq]
  exact hcur

theorem getD_modify_self {instances : List (PruningInstance β)} {i : Nat}
    (hi : i < instances.length) (f : PruningInstance β → PruningInstance β) :
    (instances.modify i f).getD i {} = f (instances.getD i {}) := by
  simp [List.getD_eq_getElem?_getD, List.getElem?_eq_getElem hi]

theorem getD_modify_of_ne {instances : List (PruningInstance β)} {i k : Nat} (hne : k ≠ i)
    (f : PruningInstance β → PruningInstance β) :
    (instances.modify i f).getD k {} = instances.getD k {} := by
  simp [List.getD_eq_getElem?_getD, List.getElem?_modify_ne _ _ (Ne.symm hne)]

theorem walkFrame_modifyCurrent (f : PruningInstance β → PruningInstance β) :
    WalkFrame context (context.modifyCurrent f) :=
  ⟨rfl, List.length_modify _ _ _, fun _ hk => getD_modify_of_ne hk f,
    ⟨[], by simp [modifyCurrent], by simp⟩, ⟨[], by simp [modifyCurrent], by simp⟩⟩

theorem current_modifyCurrent (hcur : context.currentPruningInstance < context.instances.length)
    (f : PruningInstance β → PruningInstance β) :
    (context.modifyCurrent f).current = f context.current :=
  getD_modify_self hcur f

/-- `addCurrentToPruningInstances`: the current instance is flagged as listed, and
listed unless the flag says it already is. -/
theorem addCurrentToPruningInstances_spec
    (hcur : context.currentPruningInstance < context.instances.length) :
    WalkFrame context context.addCurrentToPruningInstances ∧
      context.addCurrentToPruningInstances.pendingInstances = context.pendingInstances ∧
      context.addCurrentToPruningInstances.current =
        { context.current with addedToPruningInstances := true } ∧
      ((context.current.addedToPruningInstances = true →
          context.currentPruningInstance ∈ context.pruningInstances) →
        context.currentPruningInstance ∈ context.addCurrentToPruningInstances.pruningInstances) := by
  unfold addCurrentToPruningInstances
  split_ifs with hadded
  · refine ⟨WalkFrame.refl, rfl, ?_, fun hlisted => hlisted hadded⟩
    -- the flag is already set
    rw [← hadded]
  · have hframe : WalkFrame context
        (context.modifyCurrent fun prune => { prune with addedToPruningInstances := true }) :=
      walkFrame_modifyCurrent _
    refine ⟨⟨rfl, hframe.length_eq, hframe.getD_of_ne, ⟨[context.currentPruningInstance], rfl,
      by simp⟩, ⟨[], by simp [modifyCurrent], by simp⟩⟩, rfl,
      current_modifyCurrent hcur _, fun _ => List.mem_append_right _ (List.mem_singleton_self _)⟩

/-- `AddNewConjuction`: the current instance is queued to continue at `node`, and
flagged as partial. -/
theorem addNewConjuction_spec (hcur : context.currentPruningInstance < context.instances.length)
    (node : PruningTreeNode β) :
    WalkFrame context (addNewConjuction context node) ∧
      (addNewConjuction context node).pendingInstances =
        context.pendingInstances ++ [⟨context.currentPruningInstance, node⟩] ∧
      (addNewConjuction context node).current = { context.current with isPartial := true } ∧
      (addNewConjuction context node).pruningInstances = context.pruningInstances := by
  have hframe : WalkFrame context (context.modifyCurrent fun prune => { prune with isPartial := true }) :=
    walkFrame_modifyCurrent _
  exact ⟨⟨rfl, hframe.length_eq, hframe.getD_of_ne, ⟨[], by simp [addNewConjuction, modifyCurrent],
    by simp⟩, ⟨[⟨context.currentPruningInstance, node⟩], rfl, by simp⟩⟩, rfl,
    current_modifyCurrent hcur _, rfl⟩

/-- The walk of many `OR` disjuncts: each queues the current instance once. -/
theorem foldl_addNewConjuction (nodes : List (PruningTreeNode β))
    (hcur : context.currentPruningInstance < context.instances.length) :
    WalkFrame context (nodes.foldl addNewConjuction context) ∧
      (nodes.foldl addNewConjuction context).pendingInstances =
        context.pendingInstances ++ nodes.map (⟨context.currentPruningInstance, ·⟩) ∧
      (nodes.foldl addNewConjuction context).pruningInstances = context.pruningInstances ∧
      ∃ queued, (nodes.foldl addNewConjuction context).current =
        { context.current with isPartial := queued } := by
  induction nodes generalizing context with
  | nil => exact ⟨WalkFrame.refl, by simp, rfl, context.current.isPartial, rfl⟩
  | cons node rest ih =>
      obtain ⟨hframe, hpending, hcurrent, hlisted⟩ := addNewConjuction_spec hcur node
      obtain ⟨hframe', hpending', hlisted', queued, hcurrent'⟩ := ih (hframe.current_lt hcur)
      refine ⟨hframe.trans hframe', ?_, hlisted'.trans hlisted, queued, ?_⟩
      · rw [List.foldl_cons, hpending', hpending, hframe.current_eq]
        simp
      · rw [List.foldl_cons, hcurrent', hcurrent]

end ClauseWalkerContext

open ClauseWalkerContext

/-! ### The walk's frame, and the weight it queues -/

section Weights

variable (catalog : OperatorCatalog β) (partitionColumn : Var)

/-- The disjuncts an `OR` node queues the current instance at: one for its unknown
constraints, one per valid constraint, and its children. -/
def orDisjuncts (node : PruningTreeNode β) : List (PruningTreeNode β) :=
  (if node.hasInvalidConstraints then [invalidConjunction] else []) ++
    node.validConstraints.map conjunctionOf ++ node.childBooleanNodes

/-- The weight of the queue: each pending instance counts once, with what its walk
will queue. -/
def queueWeight (pending : List (PendingPruningInstance β)) : Nat :=
  (pending.map fun p => 1 + pendingWeight catalog partitionColumn p.continueAt).sum

theorem queueWeight_append (pending pending' : List (PendingPruningInstance β)) :
    queueWeight catalog partitionColumn (pending ++ pending') =
      queueWeight catalog partitionColumn pending + queueWeight catalog partitionColumn pending' := by
  rw [queueWeight, List.map_append, List.sum_append]
  rfl

theorem queueWeight_map (pruningInstance : Nat) (nodes : List (PruningTreeNode β)) :
    queueWeight catalog partitionColumn (nodes.map (⟨pruningInstance, ·⟩)) =
      (nodes.map fun node => 1 + pendingWeight catalog partitionColumn node).sum := by
  rw [queueWeight, List.map_map]
  rfl

theorem queueWeight_cons (pending : PendingPruningInstance β)
    (rest : List (PendingPruningInstance β)) :
    queueWeight catalog partitionColumn (pending :: rest) =
      1 + pendingWeight catalog partitionColumn pending.continueAt +
        queueWeight catalog partitionColumn rest := by
  rw [queueWeight, List.map_cons, List.sum_cons]
  rfl

theorem queuedWeightList_eq (nodes : List (PruningTreeNode β)) :
    queuedWeightList catalog partitionColumn nodes =
      (nodes.map fun node => 1 + pendingWeight catalog partitionColumn node).sum := by
  induction nodes with
  | nil => rfl
  | cons node rest ih =>
      rw [queuedWeightList, ih, List.map_cons, List.sum_cons]

theorem pendingWeightList_eq (nodes : List (PruningTreeNode β)) :
    pendingWeightList catalog partitionColumn nodes =
      (nodes.map (pendingWeight catalog partitionColumn)).sum := by
  induction nodes with
  | nil => rfl
  | cons node rest ih => rw [pendingWeightList, ih, List.map_cons, List.sum_cons]

/-- An `OR` node's weight is that of its disjuncts, each counted with its own queued
instance. -/
theorem pendingWeight_orExpr (hasInvalidConstraints : Bool) (validConstraints : List (Expr β))
    (childBooleanNodes : List (PruningTreeNode β)) :
    pendingWeight catalog partitionColumn
        ⟨.orExpr, hasInvalidConstraints, validConstraints, childBooleanNodes⟩ =
      ((orDisjuncts ⟨.orExpr, hasInvalidConstraints, validConstraints, childBooleanNodes⟩).map
        fun node => 1 + pendingWeight catalog partitionColumn node).sum := by
  have hconj : ∀ constraint : Expr β, pendingWeight catalog partitionColumn
      (conjunctionOf constraint) = constraintWeight catalog partitionColumn constraint := by
    intro constraint
    simp [conjunctionOf, createPruningNode, pendingWeight, pendingWeightList]
  have hinvalid : pendingWeight catalog partitionColumn (invalidConjunction : PruningTreeNode β) = 0 := by
    simp [invalidConjunction, createPruningNode, pendingWeight, pendingWeightList]
  rw [pendingWeight, queuedWeightList_eq, orDisjuncts]
  simp only [List.map_append, List.sum_append, List.map_map, Function.comp_def, hconj]
  cases hasInvalidConstraints <;> simp [hinvalid]

/-- The clauses `SAORestrictions` gives: the partition column equal to a non-null
element. -/
theorem exists_of_mem_saoRestrictions {sao restriction : Expr β}
    (h : restriction ∈ (saoRestrictions catalog partitionColumn sao).getD []) :
    ∃ opno constantClause, restriction = .opExpr opno [.var partitionColumn, .const constantClause] ∧
      constantClause.constisnull = false := by
  unfold saoRestrictions at h
  split at h
  · next opno useOr varClause elements constisnull =>
      by_cases hcond : (catalog.implementsEquality opno && varClause == partitionColumn &&
          !constisnull) = true
      · rw [if_pos hcond] at h
        simp only [Bool.and_eq_true, beq_iff_eq] at hcond
        -- an empty list of restrictions reads as `none`, whose default is the same list
        have hempty : ∀ restrictions : List (Expr β),
            (if restrictions.isEmpty then none else some restrictions).getD [] = restrictions := by
          intro restrictions
          cases restrictions <;> rfl
        dsimp only at h
        rw [hempty] at h
        simp only [List.mem_filterMap, Option.map_eq_some_iff] at h
        obtain ⟨_, _, value, _, rfl⟩ := h
        exact ⟨opno, ⟨value, false⟩, by rw [hcond.1.2], rfl⟩
      · rw [if_neg hcond] at h
        simp at h
  · simp at h

/-- The `OR` node `AddSAOPartitionKeyRestrictionToInstance` queues weighs one per
equality: an operator clause queues nothing. -/
theorem pendingWeight_saoNode (sao : Expr β) :
    pendingWeight catalog partitionColumn
        { createPruningNode .orExpr with
          validConstraints := (saoRestrictions catalog partitionColumn sao).getD [] } =
      ((saoRestrictions catalog partitionColumn sao).getD []).length := by
  have hzero : ∀ restriction ∈ (saoRestrictions catalog partitionColumn sao).getD [],
      1 + constraintWeight catalog partitionColumn restriction = 1 := by
    intro restriction hmem
    obtain ⟨opno, constantClause, rfl, -⟩ := exists_of_mem_saoRestrictions catalog partitionColumn hmem
    rfl
  simp only [createPruningNode, pendingWeight, queuedWeightList, Bool.false_eq_true, if_false,
    zero_add, add_zero]
  rw [List.map_congr_left hzero]
  simp

end Weights

section WalkFrame

variable [LinearOrder β] (catalog : OperatorCatalog β) (partitionColumn : Var)

/-- The walk of an `OR` node queues the current instance at each of its disjuncts. -/
theorem prunableExpressionsWalker_orExpr (context : ClauseWalkerContext β)
    (hasInvalidConstraints : Bool) (validConstraints : List (Expr β))
    (childBooleanNodes : List (PruningTreeNode β)) :
    prunableExpressionsWalker catalog partitionColumn context
        ⟨.orExpr, hasInvalidConstraints, validConstraints, childBooleanNodes⟩ =
      (orDisjuncts ⟨.orExpr, hasInvalidConstraints, validConstraints, childBooleanNodes⟩).foldl
        addNewConjuction context := by
  rw [prunableExpressionsWalker, orDisjuncts, List.foldl_append, List.foldl_append, List.foldl_map]
  cases hasInvalidConstraints <;> rfl

/-- The walk of any other node: its valid constraints, its unknown ones, its children. -/
theorem prunableExpressionsWalker_of_ne_or (context : ClauseWalkerContext β)
    {boolop : BoolExprType} (hop : boolop ≠ .orExpr) (hasInvalidConstraints : Bool)
    (validConstraints : List (Expr β)) (childBooleanNodes : List (PruningTreeNode β)) :
    prunableExpressionsWalker catalog partitionColumn context
        ⟨boolop, hasInvalidConstraints, validConstraints, childBooleanNodes⟩ =
      prunableExpressionsWalkerList catalog partitionColumn
        (if hasInvalidConstraints then
          (validConstraints.foldl (addValidConstraint catalog partitionColumn)
            context).addCurrentToPruningInstances
        else validConstraints.foldl (addValidConstraint catalog partitionColumn) context)
        childBooleanNodes := by
  cases boolop with
  | orExpr => exact absurd rfl hop
  | andExpr | notExpr => rfl

/-- One valid constraint of an `AND` node: an operator clause lists the instance and
restricts it, an `= ANY` queues it at the `OR` of its equalities. -/
theorem addValidConstraint_spec {context : ClauseWalkerContext β}
    (hcur : context.currentPruningInstance < context.instances.length) (constraint : Expr β) :
    WalkFrame context (addValidConstraint catalog partitionColumn context constraint) ∧
      queueWeight catalog partitionColumn
          (addValidConstraint catalog partitionColumn context constraint).pendingInstances =
        queueWeight catalog partitionColumn context.pendingInstances +
          constraintWeight catalog partitionColumn constraint := by
  unfold addValidConstraint
  split
  · -- an operator clause: listed, then restricted
    rename_i opno args
    obtain ⟨hframe, hpending, -, -⟩ := addCurrentToPruningInstances_spec hcur
    have hweight : constraintWeight catalog partitionColumn (Expr.opExpr opno args) = 0 := rfl
    rw [hweight, add_zero]
    split
    · split_ifs
      · exact ⟨hframe.trans (walkFrame_modifyCurrent _), by simp [modifyCurrent, hpending]⟩
      · exact ⟨hframe.trans (walkFrame_modifyCurrent _), by simp [modifyCurrent, hpending]⟩
      · exact ⟨hframe, by rw [hpending]⟩
    · exact ⟨hframe, by rw [hpending]⟩
  · -- an `= ANY`: the instance is queued at the `OR` of the equalities
    rename_i opno useOr args
    obtain ⟨hframe, hpending, -, -⟩ := addNewConjuction_spec hcur
      { createPruningNode .orExpr with
        validConstraints :=
          (saoRestrictions catalog partitionColumn (.scalarArrayOpExpr opno useOr args)).getD [] }
    refine ⟨hframe, ?_⟩
    rw [addSAOPartitionKeyRestrictionToInstance, hpending, queueWeight, List.map_append,
      List.sum_append, ← queueWeight]
    simp only [List.map_cons, List.map_nil, List.sum_cons, List.sum_nil, add_zero,
      pendingWeight_saoNode, constraintWeight]
  · exact ⟨WalkFrame.refl, by simp [constraintWeight]⟩

/-- The constraints of an `AND` node, one after the other. -/
theorem foldl_addValidConstraint (validConstraints : List (Expr β)) {context : ClauseWalkerContext β}
    (hcur : context.currentPruningInstance < context.instances.length) :
    WalkFrame context (validConstraints.foldl (addValidConstraint catalog partitionColumn) context) ∧
      queueWeight catalog partitionColumn
          (validConstraints.foldl (addValidConstraint catalog partitionColumn) context).pendingInstances =
        queueWeight catalog partitionColumn context.pendingInstances +
          (validConstraints.map (constraintWeight catalog partitionColumn)).sum := by
  induction validConstraints generalizing context with
  | nil => exact ⟨WalkFrame.refl, by simp⟩
  | cons constraint rest ih =>
      obtain ⟨hframe, hweight⟩ := addValidConstraint_spec catalog partitionColumn hcur constraint
      obtain ⟨hframe', hweight'⟩ := ih (hframe.current_lt hcur)
      refine ⟨hframe.trans hframe', ?_⟩
      rw [List.foldl_cons, hweight', hweight, List.map_cons, List.sum_cons]
      omega

/-- The walk of a node keeps the frame of its current instance and queues exactly
`pendingWeight` of the node. -/
theorem prunableExpressionsWalker_frame :
    (∀ (context : ClauseWalkerContext β) (node : PruningTreeNode β),
      context.currentPruningInstance < context.instances.length →
        WalkFrame context (prunableExpressionsWalker catalog partitionColumn context node) ∧
          queueWeight catalog partitionColumn
              (prunableExpressionsWalker catalog partitionColumn context node).pendingInstances =
            queueWeight catalog partitionColumn context.pendingInstances +
              pendingWeight catalog partitionColumn node) ∧
    (∀ (context : ClauseWalkerContext β) (nodes : List (PruningTreeNode β)),
      context.currentPruningInstance < context.instances.length →
        WalkFrame context (prunableExpressionsWalkerList catalog partitionColumn context nodes) ∧
          queueWeight catalog partitionColumn
              (prunableExpressionsWalkerList catalog partitionColumn context nodes).pendingInstances =
            queueWeight catalog partitionColumn context.pendingInstances +
              pendingWeightList catalog partitionColumn nodes) := by
  refine prunableExpressionsWalker.mutual_induct catalog partitionColumn
    (fun context node => context.currentPruningInstance < context.instances.length →
      WalkFrame context (prunableExpressionsWalker catalog partitionColumn context node) ∧
        queueWeight catalog partitionColumn
            (prunableExpressionsWalker catalog partitionColumn context node).pendingInstances =
          queueWeight catalog partitionColumn context.pendingInstances +
            pendingWeight catalog partitionColumn node)
    (fun context nodes => context.currentPruningInstance < context.instances.length →
      WalkFrame context (prunableExpressionsWalkerList catalog partitionColumn context nodes) ∧
        queueWeight catalog partitionColumn
            (prunableExpressionsWalkerList catalog partitionColumn context nodes).pendingInstances =
          queueWeight catalog partitionColumn context.pendingInstances +
            pendingWeightList catalog partitionColumn nodes) ?_ ?_ ?_ ?_
  · -- an `OR` node queues each disjunct with its own weight
    intro context hasInvalidConstraints validConstraints childBooleanNodes hcur
    obtain ⟨hframe, hpending, -, -⟩ := foldl_addNewConjuction
      (orDisjuncts ⟨.orExpr, hasInvalidConstraints, validConstraints, childBooleanNodes⟩) hcur
    rw [prunableExpressionsWalker_orExpr, pendingWeight_orExpr]
    refine ⟨hframe, ?_⟩
    rw [hpending, queueWeight_append, queueWeight_map]
  · -- any other node: its constraints, its unknown constraints, then its children
    intro context boolop hasInvalidConstraints validConstraints childBooleanNodes hop
    dsimp only
    intro ih hcur
    rw [prunableExpressionsWalker_of_ne_or catalog partitionColumn context hop,
      pendingWeight.eq_2 catalog partitionColumn boolop _ _ _ hop]
    obtain ⟨hframe, hweight⟩ := foldl_addValidConstraint catalog partitionColumn validConstraints hcur
    have hcur' := hframe.current_lt hcur
    cases hasInvalidConstraints with
    | false =>
        rw [if_neg Bool.false_ne_true] at ih ⊢
        obtain ⟨hframe', hweight'⟩ := ih hcur'
        refine ⟨hframe.trans hframe', ?_⟩
        rw [hweight', hweight]
        omega
    | true =>
        rw [if_pos rfl] at ih ⊢
        obtain ⟨hframe'', hpending'', -, -⟩ := addCurrentToPruningInstances_spec hcur'
        obtain ⟨hframe', hweight'⟩ := ih (hframe''.current_lt hcur')
        refine ⟨hframe.trans (hframe''.trans hframe'), ?_⟩
        rw [hweight', hpending'', hweight]
        omega
  · exact fun context _ => ⟨WalkFrame.refl, rfl⟩
  · intro context child rest ih ih' hcur
    obtain ⟨hframe, hweight⟩ := ih hcur
    obtain ⟨hframe', hweight'⟩ := ih' (hframe.current_lt hcur)
    refine ⟨hframe.trans hframe', ?_⟩
    rw [prunableExpressionsWalkerList, hweight', hweight, pendingWeightList]
    omega

end WalkFrame

/-! ### The loop over the queue -/

section Drain

theorem nextPendingInstance_eq_none_iff {context : ClauseWalkerContext β} :
    nextPendingInstance context = none ↔ context.pendingInstances = [] := by
  unfold nextPendingInstance
  split <;> simp_all

/-- A round takes the head of the queue and leaves the rest of the context as it was. -/
theorem nextPendingInstance_eq_some {context rest : ClauseWalkerContext β}
    {pending : PendingPruningInstance β} (h : nextPendingInstance context = some (pending, rest)) :
    context.pendingInstances = pending :: rest.pendingInstances ∧
      rest = { context with pendingInstances := rest.pendingInstances } := by
  unfold nextPendingInstance at h
  split at h
  · exact absurd h (Option.some_ne_none _).symm
  · next head tail hpending =>
      obtain ⟨rfl, rfl⟩ := Prod.mk.inj (Option.some.inj h)
      exact ⟨hpending, rfl⟩

variable [LinearOrder β] (catalog : OperatorCatalog β) (partitionColumn : Var)

/-- A round walks from the copy of the pending instance, appended and made current; the
walk keeps its frame and queues the weight of the node it continues at. -/
theorem completePendingInstance_frame (pending : PendingPruningInstance β)
    (context : ClauseWalkerContext β) :
    WalkFrame
        { context with
          instances := context.instances ++
            [copyPartialPruningInstance (context.instances.getD pending.pruningInstance {})]
          currentPruningInstance := context.instances.length }
        (completePendingInstance catalog partitionColumn pending context) ∧
      queueWeight catalog partitionColumn
          (completePendingInstance catalog partitionColumn pending context).pendingInstances =
        queueWeight catalog partitionColumn context.pendingInstances +
          pendingWeight catalog partitionColumn pending.continueAt :=
  (prunableExpressionsWalker_frame catalog partitionColumn).1 _ pending.continueAt (by simp)

/-- A round takes one unit of weight off the queue: the pending instance it takes. -/
theorem queueWeight_completePendingInstance {context rest : ClauseWalkerContext β}
    {pending : PendingPruningInstance β} (h : nextPendingInstance context = some (pending, rest)) :
    queueWeight catalog partitionColumn
        (completePendingInstance catalog partitionColumn pending rest).pendingInstances + 1 =
      queueWeight catalog partitionColumn context.pendingInstances := by
  obtain ⟨hpending, -⟩ := nextPendingInstance_eq_some h
  rw [(completePendingInstance_frame catalog partitionColumn pending rest).2, hpending,
    queueWeight_cons]
  omega

/-- `PrunableExpressions` empties its queue: the fuel, one more than the weight of the
tree, outlasts the loop, since each round lowers the weight of the queue by one. -/
theorem prunableExpressions_pendingInstances (tree : PruningTreeNode β) :
    (prunableExpressions catalog partitionColumn tree).pendingInstances = [] := by
  have hinitial : queueWeight catalog partitionColumn
      (prunableExpressionsWalker catalog partitionColumn initialClauseWalkerContext tree).pendingInstances =
        pendingWeight catalog partitionColumn tree := by
    rw [((prunableExpressionsWalker_frame catalog partitionColumn).1 _ tree Nat.zero_lt_one).2]
    exact Nat.zero_add _
  refine nextPendingInstance_eq_none_iff.mp (Worklist.next_drain_eq_none (fun _ => True)
    (fun context => queueWeight catalog partitionColumn context.pendingInstances) ?_ _ _ trivial
    (by omega))
  intro context pending rest _ hnext
  have hround := queueWeight_completePendingInstance catalog partitionColumn hnext
  exact ⟨trivial, by omega⟩

end Drain

end Citus.Shard
