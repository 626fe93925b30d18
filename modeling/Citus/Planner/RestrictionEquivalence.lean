import Citus.Shard.Interval
import Mathlib

/-!
# Equality of distribution columns across a query

A query over several distributed tables can be pushed down to the shards as a whole
only if the distribution columns of its tables are all equal to each other
(`relation_restriction_equivalence.c`). `RestrictionEquivalenceForPartitionKeys`
decides this from what the planner knows: it turns the planner's equivalence
classes and the `Var = Var` clauses of joins into attribute equivalence classes of
distribution columns, keeps a list of them without duplicates
(`AddAttributeClassToAttributeClassList`), grows the class of the first
distribution column by every listed class that shares a member with it
(`GenerateCommonEquivalence`), and answers whether every distributed table of the
query has its distribution column in the result.

The classes are hyperedges on distribution columns, and the intended answer is
whether every table's distribution column is connected to the first one.
`AttributeEquivalencesAreEqual` compares two classes by their lengths and by
membership in one direction only, so once a class that names one column twice is
listed, a later class of the same length that contains that column and another one
is taken for a copy and dropped (`restrictionEquivalenceForPartitionKeys_drops_class`).

## Implementation notes

* A member of a planner equivalence class is given as the column of a relation it
  resolves to: `AddToAttributeEquivalenceClass` follows subqueries, `UNION ALL`
  branches and `LATERAL` parameters down to a relation, which the model does not
  repeat. A member that resolves to no relation column is `none`.
* A class member is compared by range table identity and attribute number only, so
  it keeps only those two; the relation id and `varno` it also records are not read.
* The check for columns of outer joins (`IsRelOptOuterJoin`) is not modelled.
-/

namespace Citus.Planner

open Citus.Shard (PartitionMethod)

/-- A Citus table's `pg_dist_partition` entry as the checks read it. -/
structure CitusTable where
  partitionMethod : PartitionMethod
  /-- The distribution column's attribute number, for a table that has one. -/
  partitionKey : Int
  /-- For `DISTRIBUTE_BY_NONE`: a single-shard distributed table, rather than a
  reference or Citus local table. -/
  singleShard : Bool
  deriving DecidableEq, Repr

namespace CitusTable

/-- `HasDistributionKey`. -/
def hasDistributionKey (table : CitusTable) : Bool := table.partitionMethod != .none

/-- The `DISTRIBUTED_TABLE` type of `IsCitusTableTypeCacheEntry`. -/
def isDistributedTable (table : CitusTable) : Bool :=
  table.hasDistributionKey || table.singleShard

/-- `DistPartitionKey`: the distribution column's attribute number. -/
def distPartitionKey (table : CitusTable) : Option Int :=
  if table.hasDistributionKey then some table.partitionKey else none

end CitusTable

/-- A column of a relation in the range table: the relation, the identity Citus
gave its range table entry, and the attribute number. -/
structure ResolvedVar where
  relationId : Nat
  rteIdentity : Nat
  varattno : Int
  deriving DecidableEq, Repr

/-- `AttributeEquivalenceClassMember`, by the fields it is compared on. -/
structure AttributeEquivalenceClassMember where
  rteIdentity : Nat
  varattno : Int
  deriving DecidableEq, Repr

/-- `AttributeEquivalenceClass`. -/
structure AttributeEquivalenceClass where
  equivalenceId : Nat
  equivalentAttributes : List AttributeEquivalenceClassMember
  deriving DecidableEq, Repr

/-- `RelationRestriction`: a relation of the query, with the equivalence classes of
the planner that plans it, each as the columns its members resolve to. -/
structure RelationRestriction where
  relationId : Nat
  rteIdentity : Nat
  eqClasses : List (List (Option ResolvedVar))

/-- An argument of a join clause after `strip_implicit_coercions`: a `Var` with the
column it resolves to, if any, or another node. -/
inductive ClauseArgument
  | var (resolved : Option ResolvedVar)
  | other

/-- A clause of a join restriction. -/
inductive JoinClause
  | opExpr (opno : Nat) (args : List ClauseArgument)
  | other

/-- What the checks read of the catalog: the Citus table of a relation (`none` for a
PostgreSQL table) and which operators implement equality. -/
structure PlannerCatalog where
  citusTable : Nat → Option CitusTable
  implementsEquality : Nat → Bool

section Generate

variable (catalog : PlannerCatalog)

/-- `AddRteRelationToAttributeEquivalenceClass`: only the distribution column of a
Citus table that has one joins a class. -/
def addRteRelationToAttributeEquivalenceClass
    (equivalentAttributes : List AttributeEquivalenceClassMember) (varToBeAdded : ResolvedVar) :
    List AttributeEquivalenceClassMember :=
  match catalog.citusTable varToBeAdded.relationId with
  -- local tables are not considered
  | none => equivalentAttributes
  | some table =>
      match table.distPartitionKey with
      | none => equivalentAttributes
      | some partitionKey =>
          if partitionKey ≠ varToBeAdded.varattno then equivalentAttributes
          else equivalentAttributes ++ [⟨varToBeAdded.rteIdentity, varToBeAdded.varattno⟩]

/-- `AddToAttributeEquivalenceClass` for a member resolved to a relation column;
whole-row and system columns are skipped. -/
def addToAttributeEquivalenceClass (equivalentAttributes : List AttributeEquivalenceClassMember) :
    Option ResolvedVar → List AttributeEquivalenceClassMember
  | none => equivalentAttributes
  | some varToBeAdded =>
      if varToBeAdded.varattno ≤ 0 then equivalentAttributes
      else addRteRelationToAttributeEquivalenceClass catalog equivalentAttributes varToBeAdded

/-- `AttributeEquivalenceClassForEquivalenceClass`. -/
def attributeEquivalenceClassForEquivalenceClass (equivalenceId : Nat)
    (ecMembers : List (Option ResolvedVar)) : AttributeEquivalenceClass :=
  ⟨equivalenceId, ecMembers.foldl (addToAttributeEquivalenceClass catalog) []⟩

end Generate

/-- `AttributeClassContainsAttributeClassMember`. -/
def attributeClassContainsAttributeClassMember (inputMember : AttributeEquivalenceClassMember)
    (attributeEquivalenceClass : List AttributeEquivalenceClassMember) : Bool :=
  attributeEquivalenceClass.any fun memberOfClass =>
    memberOfClass.rteIdentity == inputMember.rteIdentity &&
      memberOfClass.varattno == inputMember.varattno

/-- `AttributeEquivalencesAreEqual`: equal lengths, and every member of the first
class is found in the second. -/
def attributeEquivalencesAreEqual (firstAttributeEquivalence secondAttributeEquivalence :
    AttributeEquivalenceClass) : Bool :=
  firstAttributeEquivalence.equivalentAttributes.length ==
      secondAttributeEquivalence.equivalentAttributes.length &&
    firstAttributeEquivalence.equivalentAttributes.all fun firstEqMember =>
      attributeClassContainsAttributeClassMember firstEqMember
        secondAttributeEquivalence.equivalentAttributes

/-- `AddAttributeClassToAttributeClassList`: classes of fewer than two members and
classes equal to a listed one are not added. -/
def addAttributeClassToAttributeClassList (attributeEquivalenceList : List AttributeEquivalenceClass)
    (attributeEquivalence : AttributeEquivalenceClass) : List AttributeEquivalenceClass :=
  if attributeEquivalence.equivalentAttributes.length < 2 then attributeEquivalenceList
  else if attributeEquivalenceList.any fun currentAttributeEquivalence =>
      attributeEquivalencesAreEqual currentAttributeEquivalence attributeEquivalence then
    attributeEquivalenceList
  else attributeEquivalenceList ++ [attributeEquivalence]

section Generate

variable (catalog : PlannerCatalog)

/-- `GenerateAttributeEquivalencesForRelationRestrictions`, from the equivalence id
`attributeEquivalenceId`; returns the list and the next id. -/
def generateAttributeEquivalencesForRelationRestrictions
    (relationRestrictionList : List RelationRestriction) (attributeEquivalenceId : Nat) :
    List AttributeEquivalenceClass × Nat :=
  relationRestrictionList.foldl (fun (attributeEquivalenceList, attributeEquivalenceId)
      relationRestriction =>
    relationRestriction.eqClasses.foldl (fun (attributeEquivalenceList, attributeEquivalenceId)
        plannerEqClass =>
      (addAttributeClassToAttributeClassList attributeEquivalenceList
        (attributeEquivalenceClassForEquivalenceClass catalog attributeEquivalenceId plannerEqClass),
        attributeEquivalenceId + 1))
      (attributeEquivalenceList, attributeEquivalenceId))
    ([], attributeEquivalenceId)

/-- The class of a `Var = Var` clause with an equality operator; `none` for any
other clause. -/
def joinClauseEquivalence (attributeEquivalenceId : Nat) : JoinClause → Option AttributeEquivalenceClass
  | .opExpr opno [.var leftVar, .var rightVar] =>
      if catalog.implementsEquality opno then
        some ⟨attributeEquivalenceId, addToAttributeEquivalenceClass catalog
          (addToAttributeEquivalenceClass catalog [] leftVar) rightVar⟩
      else none
  | _ => none

/-- `GenerateAttributeEquivalencesForJoinRestrictions`, from the equivalence id
`attributeEquivalenceId`; each join restriction is its list of clauses. -/
def generateAttributeEquivalencesForJoinRestrictions (joinRestrictionList : List (List JoinClause))
    (attributeEquivalenceId : Nat) : List AttributeEquivalenceClass :=
  (joinRestrictionList.flatten.foldl (fun (attributeEquivalenceList, attributeEquivalenceId)
      restrictionClause =>
    match joinClauseEquivalence catalog attributeEquivalenceId restrictionClause with
    | some attributeEquivalence =>
        (addAttributeClassToAttributeClassList attributeEquivalenceList attributeEquivalence,
          attributeEquivalenceId + 1)
    | none => (attributeEquivalenceList, attributeEquivalenceId))
    ([], attributeEquivalenceId)).1

/-- `GenerateAllAttributeEquivalences`: the equivalence ids start at `1`. -/
def generateAllAttributeEquivalences (relationRestrictionList : List RelationRestriction)
    (joinRestrictionList : List (List JoinClause)) : List AttributeEquivalenceClass :=
  let (relationRestrictionAttributeEquivalenceList, attributeEquivalenceId) :=
    generateAttributeEquivalencesForRelationRestrictions catalog relationRestrictionList 1
  relationRestrictionAttributeEquivalenceList ++
    generateAttributeEquivalencesForJoinRestrictions catalog joinRestrictionList
      attributeEquivalenceId

/-- `GenerateEquivalenceClassForRelationRestriction`: the distribution column of the
first relation that has one, in a class of id `0`. -/
def generateEquivalenceClassForRelationRestriction :
    List RelationRestriction → Option AttributeEquivalenceClass
  | [] => none
  | relationRestriction :: rest =>
      match (catalog.citusTable relationRestriction.relationId).bind (·.distPartitionKey) with
      | some partitionKey => some ⟨0, [⟨relationRestriction.rteIdentity, partitionKey⟩]⟩
      | none => generateEquivalenceClassForRelationRestriction rest

end Generate

/-- `ListConcatUniqueAttributeClassMemberLists`: the members of the second class the
first lacks, appended to it. -/
def listConcatUniqueAttributeClassMemberLists (firstClass secondClass :
    List AttributeEquivalenceClassMember) : List AttributeEquivalenceClassMember :=
  secondClass.foldl (fun firstClass newEqMember =>
    if attributeClassContainsAttributeClassMember newEqMember firstClass then firstClass
    else firstClass ++ [newEqMember]) firstClass

/-- The number of listed classes whose id is not among `addedEquivalenceIds`. -/
def pendingClassCount (attributeEquivalenceList : List AttributeEquivalenceClass)
    (addedEquivalenceIds : List Nat) : Nat :=
  (attributeEquivalenceList.filter fun attributeEquivalence =>
    attributeEquivalence.equivalenceId ∉ addedEquivalenceIds).length

theorem pendingClassCount_append_lt {attributeEquivalenceList : List AttributeEquivalenceClass}
    {addedEquivalenceIds : List Nat} {currentEquivalenceClass : AttributeEquivalenceClass}
    (hmem : currentEquivalenceClass ∈ attributeEquivalenceList)
    (hnew : currentEquivalenceClass.equivalenceId ∉ addedEquivalenceIds) :
    pendingClassCount attributeEquivalenceList
        (addedEquivalenceIds ++ [currentEquivalenceClass.equivalenceId]) <
      pendingClassCount attributeEquivalenceList addedEquivalenceIds := by
  unfold pendingClassCount
  have hsplit : attributeEquivalenceList.filter (fun attributeEquivalence =>
        attributeEquivalence.equivalenceId ∉
          addedEquivalenceIds ++ [currentEquivalenceClass.equivalenceId]) =
      (attributeEquivalenceList.filter fun attributeEquivalence =>
        attributeEquivalence.equivalenceId ∉ addedEquivalenceIds).filter
          fun attributeEquivalence =>
            attributeEquivalence.equivalenceId ≠ currentEquivalenceClass.equivalenceId := by
    rw [List.filter_filter]
    congr 1
    funext attributeEquivalence
    simp [and_comm]
  rw [hsplit, List.length_filter_lt_length_iff_exists]
  exact ⟨currentEquivalenceClass, List.mem_filter.mpr ⟨hmem, by simpa using hnew⟩, by simp⟩

/-- The loop of `GenerateCommonEquivalence` from `equivalenceClassIndex`: a class not
added yet that shares a member with the common class is merged into it, and the
scan restarts from the first class. -/
def generateCommonEquivalenceLoop (attributeEquivalenceList : List AttributeEquivalenceClass)
    (commonEquivalenceClass : List AttributeEquivalenceClassMember)
    (addedEquivalenceIds : List Nat) (equivalenceClassIndex : Nat) :
    List AttributeEquivalenceClassMember :=
  if hindex : equivalenceClassIndex < attributeEquivalenceList.length then
    let currentEquivalenceClass := attributeEquivalenceList[equivalenceClassIndex]
    if currentEquivalenceClass.equivalenceId ∈ addedEquivalenceIds then
      generateCommonEquivalenceLoop attributeEquivalenceList commonEquivalenceClass
        addedEquivalenceIds (equivalenceClassIndex + 1)
    else if currentEquivalenceClass.equivalentAttributes.any fun attributeEquialanceMember =>
        attributeClassContainsAttributeClassMember attributeEquialanceMember
          commonEquivalenceClass then
      generateCommonEquivalenceLoop attributeEquivalenceList
        (listConcatUniqueAttributeClassMemberLists commonEquivalenceClass
          currentEquivalenceClass.equivalentAttributes)
        (addedEquivalenceIds ++ [currentEquivalenceClass.equivalenceId]) 0
    else
      generateCommonEquivalenceLoop attributeEquivalenceList commonEquivalenceClass
        addedEquivalenceIds (equivalenceClassIndex + 1)
  else commonEquivalenceClass
-- every merge adds a new id, and every other iteration moves the index on
termination_by pendingClassCount attributeEquivalenceList addedEquivalenceIds *
    (attributeEquivalenceList.length + 1) + (attributeEquivalenceList.length - equivalenceClassIndex)
decreasing_by
  · exact Nat.add_lt_add_left (by omega) _
  · have hfewer := Nat.mul_le_mul_right (attributeEquivalenceList.length + 1)
      (pendingClassCount_append_lt (List.getElem_mem hindex) ‹_›)
    rw [Nat.succ_mul] at hfewer
    omega
  · exact Nat.add_lt_add_left (by omega) _

/-- `GenerateCommonEquivalence`: the members of the common class, from the class of
the first distribution column; empty without listed classes. -/
def generateCommonEquivalence (attributeEquivalenceList : List AttributeEquivalenceClass)
    (firstEquivalenceClass : Option AttributeEquivalenceClass) :
    List AttributeEquivalenceClassMember :=
  match firstEquivalenceClass with
  | none => []
  | some firstEquivalenceClass =>
      if attributeEquivalenceList.length < 1 then []
      else generateCommonEquivalenceLoop attributeEquivalenceList
        firstEquivalenceClass.equivalentAttributes [firstEquivalenceClass.equivalenceId] 0

section Decide

variable (catalog : PlannerCatalog) (relationRestrictionList : List RelationRestriction)

/-- `IsCitusTable` and `!HasDistributionKey`: a Citus table whose column need not be
equated. -/
def withoutDistributionKey (relationRestriction : RelationRestriction) : Bool :=
  match catalog.citusTable relationRestriction.relationId with
  | some table => !table.hasDistributionKey
  | none => false

/-- `EquivalenceListContainsRelationsEquality`. -/
def equivalenceListContainsRelationsEquality
    (attributeEquivalenceList : List AttributeEquivalenceClass) : Bool :=
  let commonEquivalenceClass := generateCommonEquivalence attributeEquivalenceList
    (generateEquivalenceClassForRelationRestriction catalog relationRestrictionList)
  let commonRteIdentities := commonEquivalenceClass.map (·.rteIdentity)
  relationRestrictionList.all fun relationRestriction =>
    withoutDistributionKey catalog relationRestriction ||
      relationRestriction.rteIdentity ∈ commonRteIdentities

/-- `UniqueRelationCount` for `DISTRIBUTED_TABLE`: the range table identities of
distributed tables, each counted once. -/
def uniqueDistributedRelationCount : Nat :=
  ((relationRestrictionList.filter fun relationRestriction =>
    match catalog.citusTable relationRestriction.relationId with
    | some table => table.isDistributedTable
    | none => false).map (·.rteIdentity)).dedup.length

/-- `ContainsMultipleDistributedRelations`. -/
def containsMultipleDistributedRelations : Bool :=
  1 < uniqueDistributedRelationCount catalog relationRestrictionList

/-- `ContextContainsLocalRelation`. -/
def contextContainsLocalRelation : Bool :=
  relationRestrictionList.any fun relationRestriction =>
    (catalog.citusTable relationRestriction.relationId).isNone

/-- `ContextContainsAppendRelation`. -/
def contextContainsAppendRelation : Bool :=
  relationRestrictionList.any fun relationRestriction =>
    match catalog.citusTable relationRestriction.relationId with
    | some table => table.partitionMethod == .append
    | none => false

/-- `RestrictionEquivalenceForPartitionKeys`. -/
def restrictionEquivalenceForPartitionKeys (joinRestrictionList : List (List JoinClause)) : Bool :=
  if contextContainsLocalRelation catalog relationRestrictionList then false
  -- a single distributed relation needs no equality
  else if !containsMultipleDistributedRelations catalog relationRestrictionList then true
  -- append-distributed tables are never co-located
  else if contextContainsAppendRelation catalog relationRestrictionList then false
  else
    let attributeEquivalenceList :=
      generateAllAttributeEquivalences catalog relationRestrictionList joinRestrictionList
    -- `RestrictionEquivalenceForPartitionKeysViaEquivalences`
    if !containsMultipleDistributedRelations catalog relationRestrictionList then true
    else equivalenceListContainsRelationsEquality catalog relationRestrictionList
      attributeEquivalenceList

end Decide

/-! ## The equalities the check collects -/

section Linkage

variable (catalog : PlannerCatalog) (relationRestrictionList : List RelationRestriction)
  (joinRestrictionList : List (List JoinClause))

/-- The member lists of every attribute equivalence class generated from the planner's
equivalence classes and from the `Var = Var` join clauses, before
`AddAttributeClassToAttributeClassList` filters them. -/
def generatedMemberLists : List (List AttributeEquivalenceClassMember) :=
  (relationRestrictionList.flatMap (·.eqClasses)).map
      (fun plannerEqClass =>
        (attributeEquivalenceClassForEquivalenceClass catalog 0 plannerEqClass).equivalentAttributes) ++
    (joinRestrictionList.flatten.filterMap (joinClauseEquivalence catalog 0)).map
      (·.equivalentAttributes)

/-- Two members are linked when a chain of generated classes leads from one to the
other, each sharing a member with the next. -/
def Linked (classes : List (List AttributeEquivalenceClassMember)) :
    AttributeEquivalenceClassMember → AttributeEquivalenceClassMember → Prop :=
  Relation.ReflTransGen fun first second => ∃ members ∈ classes, first ∈ members ∧ second ∈ members

/-- The distribution column of a relation restriction, as a class member. -/
def partitionKeyMember (relationRestriction : RelationRestriction) :
    Option AttributeEquivalenceClassMember :=
  ((catalog.citusTable relationRestriction.relationId).bind (·.distPartitionKey)).map
    fun partitionKey => ⟨relationRestriction.rteIdentity, partitionKey⟩

/-- What the check is meant to decide: the distribution column of every relation that
has one is linked to that of the first such relation. -/
def PartitionKeysLinked : Prop :=
  ∀ seed member, relationRestrictionList.findSome? (partitionKeyMember catalog) = some seed →
    (∃ relationRestriction ∈ relationRestrictionList,
      partitionKeyMember catalog relationRestriction = some member) →
    Linked (generatedMemberLists catalog relationRestrictionList joinRestrictionList) seed member

end Linkage

/-! ## A class that names one column twice -/

/-- Two hash-distributed tables, `1` and `2`, each distributed by its first column;
operator `96` is the integer equality. -/
def aliasedKeyCatalog : PlannerCatalog where
  citusTable relationId :=
    if relationId = 1 ∨ relationId = 2 then some ⟨.hash, 1, false⟩ else none
  implementsEquality opno := opno == 96

/-- The distribution column of table `1`, reached through output columns of a
subquery. -/
def aliasedKey : ResolvedVar := ⟨1, 1, 1⟩

/-- The distribution column of table `2`. -/
def joinedKey : ResolvedVar := ⟨2, 2, 1⟩

/-- Table `1` scanned in a subquery that is not pulled up, with its distribution column
output as `a`, `b` and `c`, and table `2` beside it, filtered by
`s.a = s.b AND s.c = 5 AND t2.key = 5`. The outer query's equivalence classes are
`{s.a, s.b}` and `{s.c, 5, t2.key}`; a class with a constant gives no join clause. -/
def aliasedKeyRestrictions : List RelationRestriction :=
  [⟨1, 1, []⟩, ⟨2, 2, [[some aliasedKey, some aliasedKey], [some aliasedKey, none, some joinedKey]]⟩]

/-- The class of `s.a = s.b` lists the column of table `1` twice, so
`AttributeEquivalencesAreEqual` takes the class of `s.c = 5 = t2.key`, of the same
length once the constant is left out, for a copy of it: both distribution columns are
linked, and the check says they are not. -/
theorem restrictionEquivalenceForPartitionKeys_drops_class :
    uniqueDistributedRelationCount aliasedKeyCatalog aliasedKeyRestrictions = 2 ∧
      contextContainsLocalRelation aliasedKeyCatalog aliasedKeyRestrictions = false ∧
      contextContainsAppendRelation aliasedKeyCatalog aliasedKeyRestrictions = false ∧
      PartitionKeysLinked aliasedKeyCatalog aliasedKeyRestrictions [] ∧
      restrictionEquivalenceForPartitionKeys aliasedKeyCatalog aliasedKeyRestrictions
        [] = false := by
  refine ⟨by decide, by decide, by decide, ?_, by decide +kernel⟩
  intro seed member hseed ⟨relationRestriction, hmem, hmember⟩
  have hfirst : aliasedKeyRestrictions.findSome? (partitionKeyMember aliasedKeyCatalog) =
      some ⟨1, 1⟩ := by decide
  obtain rfl : seed = ⟨1, 1⟩ := Option.some.inj (hseed.symm.trans hfirst)
  simp only [aliasedKeyRestrictions, List.mem_cons, List.not_mem_nil, or_false] at hmem
  rcases hmem with rfl | rfl
  · -- table 1 is the seed itself
    obtain rfl : member = ⟨1, 1⟩ := Option.some.inj (hmember.symm.trans (by decide))
    exact Relation.ReflTransGen.refl
  · -- table 2 is linked through the class of s.c = 5 = t2.key
    obtain rfl : member = ⟨2, 1⟩ := Option.some.inj (hmember.symm.trans (by decide))
    refine Relation.ReflTransGen.single ⟨[⟨1, 1⟩, ⟨2, 1⟩], ?_, by simp, by simp⟩
    decide

end Citus.Planner
