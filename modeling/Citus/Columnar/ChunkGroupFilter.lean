import Citus.Columnar.Datum
import Citus.Lib.Run

/-!
# Chunk group filtering by min and max

A columnar stripe is cut into chunk groups of `chunkRowCount` rows. While a stripe is
written, `ColumnarWriteRow` keeps for each column and chunk group a skip node with the
least and greatest non-NULL value written to it under the column's btree comparison
function (`UpdateChunkSkipNodeMinMax`, `columnar_writer.c`). `FlushStripe` saves the
nodes as rows of `columnar.chunk`, their bounds as `bytea` (`SaveStripeSkipList`,
`DatumToBytea`, `columnar_metadata.c`), and a scan reads them back
(`ReadStripeSkipList`, `ByteaToDatum`). For each column a WHERE clause mentions,
`SelectedChunkMask` (`columnar_reader.c`) builds the constraint
`column <= maximum AND column >= minimum` of each chunk group with bounds and skips the
group when PostgreSQL's `predicate_refuted_by`, in its strong mode, refutes it from the
clauses.

The bounds cover every value written to their chunk group
(`StripeSkipListCovers`), the round trip through `bytea` returns them unchanged
(`byteaToDatum_datumToBytea`), and so a skipped chunk group holds no row that satisfies
the clauses (`selectedChunkMask_sound`). A NULL makes the constraint NULL, not false,
so it is the strong mode that keeps rows with NULLs in a skipped group from matching.

## Implementation notes

* A datum is the bytes its type's functions read (`Citus.Columnar.Datum`).
* The btree comparison function of a type, called with a collation, and the value of a
  WHERE clause on a row are parameters; `predicate_refuted_by` is a parameter whose
  strong mode is assumed sound (`PredicateRefutedBySound`), and the btree operators of
  the constraint are read through the comparison function.
* The Vars of the clauses are the relation's columns, by attribute number; their type
  and collation are the column's.
* Of the skip node, the fields the bounds read are kept; the buffer offsets, lengths
  and compression fields are left out.
-/

namespace Citus.Columnar.ChunkGroupFilter

/-! ### Bounds as `bytea` -/

/-- `DatumToBytea`: the bytea holds the datum's `att_addlength_datum` bytes;
`store_att_byval` writes the low `attlen` bytes of a by-value datum. -/
def datumToBytea (value : Datum) (attrForm : FormPgAttribute) : List UInt8 :=
  if 0 < attrForm.attlen then value.take attrForm.attlen.toNat
  else value.take (attAddlengthDatum attrForm.attlen value)

/-- `ByteaToDatum`. -/
def byteaToDatum (bytes : List UInt8) (attrForm : FormPgAttribute) : Datum :=
  fetchAtt bytes attrForm.attbyval attrForm.attlen

theorem datumToBytea_of_fits {attrForm : FormPgAttribute} {value : Datum}
    (hfits : DatumFitsAttribute attrForm value) : datumToBytea value attrForm = value := by
  unfold datumToBytea
  split_ifs with hfixed
  · rw [← hfits.length_eq hfixed, List.take_length]
  · rw [attAddlengthDatum_of_fits hfits, List.take_length]

/-- A datum of a column comes back from its `bytea` unchanged. -/
theorem byteaToDatum_datumToBytea {attrForm : FormPgAttribute} {value : Datum}
    (hfits : DatumFitsAttribute attrForm value) :
    byteaToDatum (datumToBytea value attrForm) attrForm = value := by
  rw [datumToBytea_of_fits hfits]
  unfold byteaToDatum
  have hread := fetchAtt_append_of_fits hfits []
  rwa [List.append_nil] at hread

/-! ### Skip nodes -/

/-- A `ColumnChunkSkipNode`, by the fields the bounds read. -/
structure ColumnChunkSkipNode where
  rowCount : Nat
  hasMinMax : Bool
  minimumValue : Datum
  maximumValue : Datum
  deriving DecidableEq, Repr

/-- A zeroed skip node (`palloc0`). -/
def ColumnChunkSkipNode.empty : ColumnChunkSkipNode := ⟨0, false, [], []⟩

/-- `UpdateChunkSkipNodeMinMax`: a type without a comparison function keeps no bounds;
otherwise the first value is both bounds and a later one replaces the bound it passes. -/
def updateChunkSkipNodeMinMax (chunkSkipNode : ColumnChunkSkipNode) (columnValue : Datum)
    (columnTypeByValue : Bool) (columnTypeLength : Int) (columnCollation : Nat)
    (comparisonFunction : Option (Nat → Datum → Datum → Ordering)) : ColumnChunkSkipNode :=
  match comparisonFunction with
  | none => chunkSkipNode
  | some compare =>
      if !chunkSkipNode.hasMinMax then
        { chunkSkipNode with
          hasMinMax := true
          minimumValue := datumCopy columnValue columnTypeByValue columnTypeLength
          maximumValue := datumCopy columnValue columnTypeByValue columnTypeLength }
      else
        let minimumComparison := compare columnCollation columnValue chunkSkipNode.minimumValue
        let maximumComparison := compare columnCollation columnValue chunkSkipNode.maximumValue
        { chunkSkipNode with
          hasMinMax := true
          minimumValue :=
            if minimumComparison = .lt then
              datumCopy columnValue columnTypeByValue columnTypeLength
            else chunkSkipNode.minimumValue
          maximumValue :=
            if maximumComparison = .gt then
              datumCopy columnValue columnTypeByValue columnTypeLength
            else chunkSkipNode.maximumValue }

/-- A skip node's bounds cover a value: it has bounds, and the value lies between them. -/
def ColumnChunkSkipNode.Covers (compare : Datum → Datum → Ordering) (chunkSkipNode : ColumnChunkSkipNode)
    (value : Datum) : Prop :=
  chunkSkipNode.hasMinMax = true ∧ (compare chunkSkipNode.minimumValue value).isLE ∧
    (compare value chunkSkipNode.maximumValue).isLE

/-- The bounds of a node with bounds are datums of its column. -/
def ColumnChunkSkipNode.BoundsFit (attrForm : FormPgAttribute)
    (chunkSkipNode : ColumnChunkSkipNode) : Prop :=
  chunkSkipNode.hasMinMax = true → DatumFitsAttribute attrForm chunkSkipNode.minimumValue ∧
    DatumFitsAttribute attrForm chunkSkipNode.maximumValue

section Update

variable {compare : Nat → Datum → Datum → Ordering} {attrForm : FormPgAttribute}
  {chunkSkipNode : ColumnChunkSkipNode} {value : Datum}

/-- Updating a node with a value of a type that has a comparison function makes the
node's bounds cover the value. -/
theorem updateChunkSkipNodeMinMax_covers [∀ collation, Std.TransCmp (compare collation)]
    (hfits : DatumFitsAttribute attrForm value) :
    (updateChunkSkipNodeMinMax chunkSkipNode value attrForm.attbyval attrForm.attlen
      attrForm.attcollation (some compare)).Covers (compare attrForm.attcollation) value := by
  have hself : (compare attrForm.attcollation value value).isLE := by
    have hrefl : compare attrForm.attcollation value value = .eq := Std.ReflCmp.compare_self
    rw [hrefl]
    rfl
  unfold updateChunkSkipNodeMinMax
  cases hbounds : chunkSkipNode.hasMinMax with
  | false =>
      simp only [Bool.not_false, ↓reduceIte, datumCopy_of_fits hfits]
      exact ⟨rfl, hself, hself⟩
  | true =>
      simp only [Bool.not_true, Bool.false_eq_true, ↓reduceIte]
      refine ⟨rfl, ?_, ?_⟩
      · -- the minimum is the value, or a bound the value does not pass
        dsimp only
        split_ifs with hless
        · rwa [datumCopy_of_fits hfits]
        · exact Ordering.isLE_iff_ne_gt.mpr fun hgreater =>
            hless (Std.OrientedCmp.gt_iff_lt.mp hgreater)
      · dsimp only
        split_ifs with hgreater
        · rwa [datumCopy_of_fits hfits]
        · exact Ordering.ne_gt_iff_isLE.mp hgreater

/-- Updating a node keeps its bounds covering the values they covered. -/
theorem ColumnChunkSkipNode.Covers.update [∀ collation, Std.TransCmp (compare collation)]
    {previous : Datum} (hfits : DatumFitsAttribute attrForm value)
    (hcovers : chunkSkipNode.Covers (compare attrForm.attcollation) previous) :
    (updateChunkSkipNodeMinMax chunkSkipNode value attrForm.attbyval attrForm.attlen
      attrForm.attcollation (some compare)).Covers (compare attrForm.attcollation) previous := by
  obtain ⟨hbounds, hminimum, hmaximum⟩ := hcovers
  unfold updateChunkSkipNodeMinMax
  simp only [hbounds, Bool.not_true, Bool.false_eq_true, ↓reduceIte]
  refine ⟨rfl, ?_, ?_⟩
  · dsimp only
    split_ifs with hless
    · -- a new minimum lies below the old one, which lies below the covered value
      rw [datumCopy_of_fits hfits]
      exact Ordering.isLE_of_eq_lt (Std.TransCmp.lt_of_lt_of_isLE hless hminimum)
    · exact hminimum
  · dsimp only
    split_ifs with hgreater
    · -- a new maximum lies above the old one, which lies above the covered value
      rw [datumCopy_of_fits hfits]
      have hbelow : compare attrForm.attcollation chunkSkipNode.maximumValue value = .lt :=
        Std.OrientedCmp.gt_iff_lt.mp hgreater
      exact Std.TransCmp.isLE_trans hmaximum (Ordering.isLE_of_eq_lt hbelow)
    · exact hmaximum

/-- Updating a node with a datum of its column keeps its bounds datums of the column. -/
theorem ColumnChunkSkipNode.BoundsFit.update
    {comparisonFunction : Option (Nat → Datum → Datum → Ordering)}
    (hbounds : chunkSkipNode.BoundsFit attrForm) (hfits : DatumFitsAttribute attrForm value) :
    (updateChunkSkipNodeMinMax chunkSkipNode value attrForm.attbyval attrForm.attlen
      attrForm.attcollation comparisonFunction).BoundsFit attrForm := by
  intro hhas
  unfold updateChunkSkipNodeMinMax at hhas ⊢
  cases comparisonFunction with
  | none => exact hbounds hhas
  | some compare =>
      cases hprevious : chunkSkipNode.hasMinMax with
      | false =>
          simp only [Bool.not_false, ↓reduceIte, datumCopy_of_fits hfits]
          exact ⟨hfits, hfits⟩
      | true =>
          -- each new bound is the value or the old bound
          obtain ⟨hminimum, hmaximum⟩ := hbounds hprevious
          simp only [Bool.not_true, Bool.false_eq_true, ↓reduceIte, datumCopy_of_fits hfits]
          constructor
          · split_ifs <;> assumption
          · split_ifs <;> assumption

end Update

/-! ### Writing a stripe -/

/-- A `StripeSkipList`: a skip node per column and chunk group, the number of chunk
groups written to, and the number of columns. -/
structure StripeSkipList where
  chunkSkipNodeArray : Nat → Nat → ColumnChunkSkipNode
  chunkCount : Nat
  columnCount : Nat

/-- `CreateEmptyStripeSkipList`: zeroed skip nodes, no chunk group written to. -/
def createEmptyStripeSkipList (columnCount : Nat) : StripeSkipList :=
  ⟨fun _ _ => .empty, 0, columnCount⟩

/-- `ColumnarOptions`, by the row counts. -/
structure ColumnarOptions where
  chunkRowCount : Nat
  stripeRowCount : Nat
  deriving DecidableEq, Repr

/-- A writer's `ColumnarWriteState`: its stripe skip list while it has stripe buffers,
the buffers' row count, and the rows written to the stripe, which the source does not
keep. -/
structure ColumnarWriteState where
  stripeSkipList : Option StripeSkipList
  rowCount : Nat
  stripeRows : List Row

/-- A row of `columnar.chunk`, by the fields the bounds read. -/
structure ColumnarChunkRow where
  attr : Nat
  chunk : Nat
  valueCount : Nat
  minimumValue : Option (List UInt8)
  maximumValue : Option (List UInt8)
  deriving DecidableEq, Repr

/-- A flushed stripe: the `chunk_group_count` of its `columnar.stripe` row, its rows of
`columnar.chunk`, and the rows written to it. -/
structure FlushedStripe where
  chunkCount : Nat
  chunkRows : List ColumnarChunkRow
  rows : List Row

/-- A columnar table as one writer fills it: the write state and the flushed stripes. -/
structure ColumnarTable where
  writeState : ColumnarWriteState
  stripes : List FlushedStripe

/-- A table with no stripes and a writer without stripe buffers. -/
def ColumnarTable.empty : ColumnarTable := ⟨⟨none, 0, []⟩, []⟩

section Writer

variable (comparisonFunctionOf : Nat → Option (Nat → Datum → Datum → Ordering))
  (tupleDescriptor : TupleDesc)

/-- The column loop of `ColumnarWriteRow`: each column's node of the row's chunk group
counts the row, and a non-NULL value updates its bounds with the comparison function of
the column's type (`comparisonFunctionArray`) under the column's collation. -/
def writeRowSkipNodes (stripeSkipList : StripeSkipList) (chunkIndex : Nat) (row : Row) :
    Nat → Nat → ColumnChunkSkipNode :=
  fun columnIndex index =>
    let chunkSkipNode := stripeSkipList.chunkSkipNodeArray columnIndex index
    if columnIndex < tupleDescriptor.natts ∧ index = chunkIndex then
      let attributeForm := tupleDescriptor.attrs columnIndex
      let chunkSkipNode :=
        match columnValue row columnIndex with
        | none => chunkSkipNode
        | some value =>
            updateChunkSkipNodeMinMax chunkSkipNode value attributeForm.attbyval
              attributeForm.attlen attributeForm.attcollation
              (comparisonFunctionOf attributeForm.atttypid)
      { chunkSkipNode with rowCount := chunkSkipNode.rowCount + 1 }
    else chunkSkipNode

/-- The row of `columnar.chunk` that `SaveStripeSkipList` writes for a skip node: its
bounds as `bytea`, or NULLs when it has none. -/
def chunkRowOfSkipNode (columnIndex chunkIndex : Nat) (chunk : ColumnChunkSkipNode) :
    ColumnarChunkRow :=
  let attrForm := tupleDescriptor.attrs columnIndex
  if chunk.hasMinMax then
    ⟨columnIndex + 1, chunkIndex, chunk.rowCount, some (datumToBytea chunk.minimumValue attrForm),
      some (datumToBytea chunk.maximumValue attrForm)⟩
  else ⟨columnIndex + 1, chunkIndex, chunk.rowCount, none, none⟩

/-- `SaveStripeSkipList`: a row per column and chunk group. -/
def saveStripeSkipList (chunkList : StripeSkipList) : List ColumnarChunkRow :=
  (List.range chunkList.columnCount).flatMap fun columnIndex =>
    (List.range chunkList.chunkCount).map fun chunkIndex =>
      chunkRowOfSkipNode tupleDescriptor columnIndex chunkIndex
        (chunkList.chunkSkipNodeArray columnIndex chunkIndex)

/-- `ColumnarFlushPendingWrites`: a writer with stripe buffers flushes its stripe
(`FlushStripe`) and drops the buffers. -/
def flushPendingWrites (table : ColumnarTable) : ColumnarTable :=
  match table.writeState.stripeSkipList with
  | none => table
  | some stripeSkipList =>
      ⟨⟨none, 0, []⟩, table.stripes ++
        [⟨stripeSkipList.chunkCount, saveStripeSkipList tupleDescriptor stripeSkipList,
          table.writeState.stripeRows⟩]⟩

/-- `ColumnarWriteRow`, for the skip list: a writer without stripe buffers starts a
stripe, the row goes to chunk group `rowCount / chunkRowCount`, and a full stripe is
flushed. -/
def columnarWriteRow (options : ColumnarOptions) (table : ColumnarTable) (row : Row) :
    ColumnarTable :=
  let writeState := table.writeState
  let stripeSkipList :=
    writeState.stripeSkipList.getD (createEmptyStripeSkipList tupleDescriptor.natts)
  let chunkIndex := writeState.rowCount / options.chunkRowCount
  let stripeSkipList : StripeSkipList :=
    { stripeSkipList with
      chunkSkipNodeArray :=
        writeRowSkipNodes comparisonFunctionOf tupleDescriptor stripeSkipList chunkIndex row
      chunkCount := chunkIndex + 1 }
  let writeState : ColumnarWriteState :=
    ⟨some stripeSkipList, writeState.rowCount + 1, writeState.stripeRows ++ [row]⟩
  if writeState.rowCount ≥ options.stripeRowCount then
    flushPendingWrites tupleDescriptor { table with writeState }
  else { table with writeState }

/-- What a writer does. -/
inductive ColumnarWriteEvent
  | writeRow (row : Row)
  | flushPendingWrites

/-- One event. -/
def columnarWriteStep (options : ColumnarOptions) (table : ColumnarTable) :
    ColumnarWriteEvent → ColumnarTable
  | .writeRow row => columnarWriteRow comparisonFunctionOf tupleDescriptor options table row
  | .flushPendingWrites => flushPendingWrites tupleDescriptor table

end Writer

/-! ### The bounds cover what was written -/

/-- The comparison functions of btree types order their values under every collation. -/
def ComparisonFunctionsTransitive
    (comparisonFunctionOf : Nat → Option (Nat → Datum → Datum → Ordering)) : Prop :=
  ∀ typeId compare, comparisonFunctionOf typeId = some compare →
    ∀ collation, Std.TransCmp (compare collation)

/-- The bounds of a stripe skip list cover every non-NULL value written to their chunk
group in a column whose type has a comparison function, every row's chunk group is
saved, and the bounds are datums of their columns. -/
structure StripeSkipListCovers (comparisonFunctionOf : Nat → Option (Nat → Datum → Datum → Ordering))
    (tupleDescriptor : TupleDesc) (chunkRowCount : Nat) (stripeSkipList : StripeSkipList)
    (rows : List Row) : Prop where
  columnCount_eq : stripeSkipList.columnCount = tupleDescriptor.natts
  chunk_lt : ∀ rowIndex < rows.length, rowIndex / chunkRowCount < stripeSkipList.chunkCount
  covers : ∀ rowIndex row columnIndex value compare, rows[rowIndex]? = some row →
    columnIndex < tupleDescriptor.natts → columnValue row columnIndex = some value →
    comparisonFunctionOf (tupleDescriptor.attrs columnIndex).atttypid = some compare →
    (stripeSkipList.chunkSkipNodeArray columnIndex (rowIndex / chunkRowCount)).Covers
      (compare (tupleDescriptor.attrs columnIndex).attcollation) value
  bounds_fit : ∀ columnIndex chunkIndex,
    (stripeSkipList.chunkSkipNodeArray columnIndex chunkIndex).BoundsFit
      (tupleDescriptor.attrs columnIndex)

/-- A flushed stripe's rows of `columnar.chunk` are those of a skip list whose bounds
cover the stripe's rows. -/
def FlushedStripeCovers (comparisonFunctionOf : Nat → Option (Nat → Datum → Datum → Ordering))
    (tupleDescriptor : TupleDesc) (chunkRowCount : Nat) (stripe : FlushedStripe) : Prop :=
  ∃ stripeSkipList, stripe.chunkCount = stripeSkipList.chunkCount ∧
    stripe.chunkRows = saveStripeSkipList tupleDescriptor stripeSkipList ∧
    StripeSkipListCovers comparisonFunctionOf tupleDescriptor chunkRowCount stripeSkipList stripe.rows

/-- The writer's stripe, a fresh one while it has no stripe buffers, and every flushed
stripe have bounds that cover their rows. -/
structure TableCovers (comparisonFunctionOf : Nat → Option (Nat → Datum → Datum → Ordering))
    (tupleDescriptor : TupleDesc) (chunkRowCount : Nat) (table : ColumnarTable) : Prop where
  rowCount_eq : table.writeState.rowCount = table.writeState.stripeRows.length
  current : StripeSkipListCovers comparisonFunctionOf tupleDescriptor chunkRowCount
    (table.writeState.stripeSkipList.getD (createEmptyStripeSkipList tupleDescriptor.natts))
    table.writeState.stripeRows
  stripes : ∀ stripe ∈ table.stripes,
    FlushedStripeCovers comparisonFunctionOf tupleDescriptor chunkRowCount stripe

theorem getElem?_concat_eq_some {α : Type} {l : List α} {a b : α} {i : Nat}
    (h : (l ++ [a])[i]? = some b) : (i < l.length ∧ l[i]? = some b) ∨ (i = l.length ∧ b = a) := by
  rcases Nat.lt_or_ge i l.length with hlt | hge
  · left
    rw [List.getElem?_append_left hlt] at h
    exact ⟨hlt, h⟩
  · right
    rw [List.getElem?_append_right hge] at h
    have hzero : i - l.length = 0 := by
      have hbound := (List.getElem?_eq_some_iff.mp h).1
      simp only [List.length_singleton] at hbound
      omega
    rw [hzero, List.getElem?_singleton] at h
    simp only [↓reduceIte, Option.some.injEq] at h
    exact ⟨by omega, h.symm⟩

section Covers

variable {comparisonFunctionOf : Nat → Option (Nat → Datum → Datum → Ordering)}
  {tupleDescriptor : TupleDesc}

/-- What the column loop of `ColumnarWriteRow` does to a node: leaves one of another
column or chunk group alone, counts a NULL, or counts a value and updates the bounds
with it. -/
theorem writeRowSkipNodes_cases (stripeSkipList : StripeSkipList) (chunkIndex : Nat) (row : Row)
    (columnIndex index : Nat) :
    let chunkSkipNode := stripeSkipList.chunkSkipNodeArray columnIndex index
    let attributeForm := tupleDescriptor.attrs columnIndex
    let written := writeRowSkipNodes comparisonFunctionOf tupleDescriptor stripeSkipList
      chunkIndex row columnIndex index
    (¬(columnIndex < tupleDescriptor.natts ∧ index = chunkIndex) ∧ written = chunkSkipNode) ∨
      (columnIndex < tupleDescriptor.natts ∧ index = chunkIndex ∧
        columnValue row columnIndex = none ∧
        written = { chunkSkipNode with rowCount := chunkSkipNode.rowCount + 1 }) ∨
      ∃ value, columnIndex < tupleDescriptor.natts ∧ index = chunkIndex ∧
        columnValue row columnIndex = some value ∧
        written =
          let updated := updateChunkSkipNodeMinMax chunkSkipNode value attributeForm.attbyval
            attributeForm.attlen attributeForm.attcollation
            (comparisonFunctionOf attributeForm.atttypid)
          { updated with rowCount := updated.rowCount + 1 } := by
  intro chunkSkipNode attributeForm written
  by_cases hwritten : columnIndex < tupleDescriptor.natts ∧ index = chunkIndex
  · obtain ⟨hcolumn, rfl⟩ := hwritten
    cases hvalue : columnValue row columnIndex with
    | none =>
        refine .inr (.inl ⟨hcolumn, rfl, rfl, ?_⟩)
        simp only [written, writeRowSkipNodes, hcolumn, hvalue, and_self, ↓reduceIte]
        rfl
    | some value =>
        refine .inr (.inr ⟨value, hcolumn, rfl, rfl, ?_⟩)
        simp only [written, writeRowSkipNodes, hcolumn, hvalue, and_self, ↓reduceIte]
        rfl
  · refine .inl ⟨hwritten, ?_⟩
    simp only [written, writeRowSkipNodes, hwritten, ↓reduceIte]
    rfl

variable (hcompare : ComparisonFunctionsTransitive comparisonFunctionOf)
include hcompare

/-- Writing a row keeps every node's bounds covering what they covered. -/
theorem writeRowSkipNodes_covers {stripeSkipList : StripeSkipList} {chunkIndex : Nat} {row : Row}
    {columnIndex index : Nat} {compare : Nat → Datum → Datum → Ordering} {previous : Datum}
    (hrow : RowFitsTupleDesc tupleDescriptor row)
    (hcomparison : comparisonFunctionOf (tupleDescriptor.attrs columnIndex).atttypid = some compare)
    (hcovers : (stripeSkipList.chunkSkipNodeArray columnIndex index).Covers
      (compare (tupleDescriptor.attrs columnIndex).attcollation) previous) :
    (writeRowSkipNodes comparisonFunctionOf tupleDescriptor stripeSkipList chunkIndex row
      columnIndex index).Covers (compare (tupleDescriptor.attrs columnIndex).attcollation) previous := by
  have := hcompare _ _ hcomparison
  rcases writeRowSkipNodes_cases stripeSkipList chunkIndex row columnIndex index with
    ⟨-, hsame⟩ | ⟨-, -, -, hnull⟩ | ⟨value, hcolumn, -, hvalue, hupdated⟩
  · rw [hsame]
    exact hcovers
  · rw [hnull]
    exact hcovers
  · rw [hupdated]
    dsimp only
    rw [hcomparison]
    exact hcovers.update (hrow columnIndex hcolumn value hvalue)

/-- Writing a row makes the bounds of its chunk group cover its values. -/
theorem writeRowSkipNodes_covers_value {stripeSkipList : StripeSkipList} {chunkIndex : Nat}
    {row : Row} {columnIndex : Nat} {value : Datum} {compare : Nat → Datum → Datum → Ordering}
    (hrow : RowFitsTupleDesc tupleDescriptor row) (hcolumn : columnIndex < tupleDescriptor.natts)
    (hvalue : columnValue row columnIndex = some value)
    (hcomparison : comparisonFunctionOf (tupleDescriptor.attrs columnIndex).atttypid = some compare) :
    (writeRowSkipNodes comparisonFunctionOf tupleDescriptor stripeSkipList chunkIndex row
      columnIndex chunkIndex).Covers (compare (tupleDescriptor.attrs columnIndex).attcollation) value := by
  have := hcompare _ _ hcomparison
  rcases writeRowSkipNodes_cases stripeSkipList chunkIndex row columnIndex chunkIndex with
    ⟨hskipped, -⟩ | ⟨-, -, hnull, -⟩ | ⟨written, -, -, hwritten, hupdated⟩
  · exact absurd ⟨hcolumn, rfl⟩ hskipped
  · rw [hvalue] at hnull
    cases hnull
  · rw [hvalue, Option.some.injEq] at hwritten
    subst hwritten
    rw [hupdated]
    dsimp only
    rw [hcomparison]
    exact updateChunkSkipNodeMinMax_covers (hrow columnIndex hcolumn value hvalue)

omit hcompare in
/-- Writing a row keeps the bounds datums of their columns. -/
theorem writeRowSkipNodes_boundsFit {stripeSkipList : StripeSkipList} {chunkIndex : Nat} {row : Row}
    {columnIndex index : Nat} (hrow : RowFitsTupleDesc tupleDescriptor row)
    (hbounds : (stripeSkipList.chunkSkipNodeArray columnIndex index).BoundsFit
      (tupleDescriptor.attrs columnIndex)) :
    (writeRowSkipNodes comparisonFunctionOf tupleDescriptor stripeSkipList chunkIndex row
      columnIndex index).BoundsFit (tupleDescriptor.attrs columnIndex) := by
  rcases writeRowSkipNodes_cases stripeSkipList chunkIndex row columnIndex index with
    ⟨-, hsame⟩ | ⟨-, -, -, hnull⟩ | ⟨value, hcolumn, -, hvalue, hupdated⟩
  · rw [hsame]
    exact hbounds
  · rw [hnull]
    exact hbounds
  · rw [hupdated]
    exact hbounds.update (hrow columnIndex hcolumn value hvalue)

omit hcompare in
/-- A fresh stripe skip list covers no rows. -/
theorem StripeSkipListCovers.empty (chunkRowCount : Nat) :
    StripeSkipListCovers comparisonFunctionOf tupleDescriptor chunkRowCount
      (createEmptyStripeSkipList tupleDescriptor.natts) [] where
  columnCount_eq := rfl
  chunk_lt := fun _ hindex => absurd hindex (Nat.not_lt_zero _)
  covers := fun _ _ _ _ _ hrow => by simp at hrow
  bounds_fit := fun _ _ hbounds => absurd hbounds Bool.false_ne_true

/-- Writing a row to the next place of a stripe keeps its bounds covering its rows. -/
theorem StripeSkipListCovers.writeRow {chunkRowCount : Nat} {stripeSkipList : StripeSkipList}
    {rows : List Row} {row : Row}
    (hcovers : StripeSkipListCovers comparisonFunctionOf tupleDescriptor chunkRowCount
      stripeSkipList rows)
    (hrow : RowFitsTupleDesc tupleDescriptor row) :
    StripeSkipListCovers comparisonFunctionOf tupleDescriptor chunkRowCount
      { stripeSkipList with
        chunkSkipNodeArray := writeRowSkipNodes comparisonFunctionOf tupleDescriptor
          stripeSkipList (rows.length / chunkRowCount) row
        chunkCount := rows.length / chunkRowCount + 1 } (rows ++ [row]) where
  columnCount_eq := hcovers.columnCount_eq
  chunk_lt := by
    intro rowIndex hindex
    have hle : rowIndex ≤ rows.length := by
      simp only [List.length_append, List.length_singleton] at hindex
      omega
    exact Nat.lt_succ_of_le (Nat.div_le_div_right hle)
  covers := by
    intro rowIndex written columnIndex value compare hwritten hcolumn hvalue hcomparison
    rcases getElem?_concat_eq_some hwritten with ⟨-, hprevious⟩ | ⟨rfl, rfl⟩
    · exact writeRowSkipNodes_covers hcompare hrow hcomparison
        (hcovers.covers rowIndex written columnIndex value compare hprevious hcolumn hvalue
          hcomparison)
    · exact writeRowSkipNodes_covers_value hcompare hrow hcolumn hvalue hcomparison
  bounds_fit := fun columnIndex index =>
    writeRowSkipNodes_boundsFit hrow (hcovers.bounds_fit columnIndex index)

omit hcompare in
theorem TableCovers.empty (chunkRowCount : Nat) :
    TableCovers comparisonFunctionOf tupleDescriptor chunkRowCount ColumnarTable.empty where
  rowCount_eq := rfl
  current := StripeSkipListCovers.empty chunkRowCount
  stripes := fun _ hstripe => absurd hstripe List.not_mem_nil

omit hcompare in
/-- Flushing keeps every stripe's bounds covering its rows. -/
theorem TableCovers.flushPendingWrites {chunkRowCount : Nat} {table : ColumnarTable}
    (hcovers : TableCovers comparisonFunctionOf tupleDescriptor chunkRowCount table) :
    TableCovers comparisonFunctionOf tupleDescriptor chunkRowCount
      (flushPendingWrites tupleDescriptor table) := by
  have hcurrent := hcovers.current
  unfold ChunkGroupFilter.flushPendingWrites
  cases hskip : table.writeState.stripeSkipList with
  | none => exact hcovers
  | some stripeSkipList =>
      rw [hskip, Option.getD_some] at hcurrent
      refine ⟨rfl, StripeSkipListCovers.empty chunkRowCount, ?_⟩
      intro stripe hstripe
      rcases List.mem_append.mp hstripe with hold | hnew
      · exact hcovers.stripes stripe hold
      · rw [List.mem_singleton.mp hnew]
        exact ⟨stripeSkipList, rfl, rfl, hcurrent⟩

/-- Writing a row keeps every stripe's bounds covering its rows. -/
theorem TableCovers.columnarWriteRow {options : ColumnarOptions} {table : ColumnarTable} {row : Row}
    (hcovers : TableCovers comparisonFunctionOf tupleDescriptor options.chunkRowCount table)
    (hrow : RowFitsTupleDesc tupleDescriptor row) :
    TableCovers comparisonFunctionOf tupleDescriptor options.chunkRowCount
      (columnarWriteRow comparisonFunctionOf tupleDescriptor options table row) := by
  have hstripe := hcovers.current.writeRow hcompare hrow
  rw [← hcovers.rowCount_eq] at hstripe
  have hwritten : TableCovers comparisonFunctionOf tupleDescriptor options.chunkRowCount
      { table with writeState :=
        ⟨some _, table.writeState.rowCount + 1, table.writeState.stripeRows ++ [row]⟩ } :=
    ⟨by simp [hcovers.rowCount_eq], hstripe, hcovers.stripes⟩
  unfold ChunkGroupFilter.columnarWriteRow
  dsimp only
  split_ifs
  · exact hwritten.flushPendingWrites
  · exact hwritten

/-- Every run of a writer keeps every stripe's bounds covering its rows. -/
theorem TableCovers.run (options : ColumnarOptions) (events : List ColumnarWriteEvent)
    (hrows : ∀ row, ColumnarWriteEvent.writeRow row ∈ events → RowFitsTupleDesc tupleDescriptor row) :
    TableCovers comparisonFunctionOf tupleDescriptor options.chunkRowCount
      (events.foldl (columnarWriteStep comparisonFunctionOf tupleDescriptor options)
        ColumnarTable.empty) := by
  apply EventRun.foldl_invariant _ (TableCovers.empty options.chunkRowCount)
  intro table event hevent hcovers
  cases event with
  | writeRow row => exact hcovers.columnarWriteRow hcompare (hrows row hevent)
  | flushPendingWrites => exact hcovers.flushPendingWrites

end Covers

/-! ### Reading a stripe -/

/-- One row of `columnar.chunk` read into a skip list (`ReadStripeSkipList`): its
attribute and chunk number are checked, and its bounds are read back when neither is
NULL. -/
def readChunkRow (tupleDescriptor : TupleDesc) (chunkCount : Nat) (chunkList : StripeSkipList)
    (chunkRow : ColumnarChunkRow) : Except (String × String) StripeSkipList :=
  if chunkRow.attr = 0 ∨ chunkRow.attr > chunkList.columnCount then
    .error ("invalid columnar chunk entry",
      "Attribute number out of range: " ++ toString chunkRow.attr)
  else if chunkRow.chunk ≥ chunkCount then
    .error ("invalid columnar chunk entry", "Chunk number out of range: " ++ toString chunkRow.chunk)
  else
    let columnIndex := chunkRow.attr - 1
    let attrForm := tupleDescriptor.attrs columnIndex
    let chunk := chunkList.chunkSkipNodeArray columnIndex chunkRow.chunk
    let chunk :=
      match chunkRow.minimumValue, chunkRow.maximumValue with
      | some minValue, some maxValue =>
          { chunk with
            rowCount := chunkRow.valueCount
            minimumValue := byteaToDatum minValue attrForm
            maximumValue := byteaToDatum maxValue attrForm
            hasMinMax := true }
      | _, _ => { chunk with rowCount := chunkRow.valueCount, hasMinMax := false }
    .ok { chunkList with
      chunkSkipNodeArray := fun column index =>
        if column = columnIndex ∧ index = chunkRow.chunk then chunk
        else chunkList.chunkSkipNodeArray column index }

/-- `ReadStripeSkipList`: zeroed skip nodes filled from the stripe's rows of
`columnar.chunk`. -/
def readStripeSkipList (tupleDescriptor : TupleDesc) (chunkCount : Nat)
    (chunkRows : List ColumnarChunkRow) : Except (String × String) StripeSkipList :=
  chunkRows.foldlM (readChunkRow tupleDescriptor chunkCount)
    ⟨fun _ _ => .empty, chunkCount, tupleDescriptor.natts⟩

/-- A skip list read so far from the rows a saved skip list wrote agrees with it: the
same counts, and every node with bounds is one of a column, with the saved bounds. -/
def ReadAgrees (tupleDescriptor : TupleDesc) (stripeSkipList chunkList : StripeSkipList) : Prop :=
  chunkList.chunkCount = stripeSkipList.chunkCount ∧
    chunkList.columnCount = tupleDescriptor.natts ∧
    ∀ columnIndex chunkIndex, (chunkList.chunkSkipNodeArray columnIndex chunkIndex).hasMinMax = true →
      columnIndex < tupleDescriptor.natts ∧
        (chunkList.chunkSkipNodeArray columnIndex chunkIndex).minimumValue =
          (stripeSkipList.chunkSkipNodeArray columnIndex chunkIndex).minimumValue ∧
        (chunkList.chunkSkipNodeArray columnIndex chunkIndex).maximumValue =
          (stripeSkipList.chunkSkipNodeArray columnIndex chunkIndex).maximumValue

section Read

variable {tupleDescriptor : TupleDesc} {stripeSkipList : StripeSkipList}

/-- Reading the row `SaveStripeSkipList` wrote for a node passes both checks and
restores the node's bounds. -/
theorem readChunkRow_chunkRowOfSkipNode {chunkList : StripeSkipList} {columnIndex chunkIndex : Nat}
    (hread : ReadAgrees tupleDescriptor stripeSkipList chunkList)
    (hbounds : (stripeSkipList.chunkSkipNodeArray columnIndex chunkIndex).BoundsFit
      (tupleDescriptor.attrs columnIndex))
    (hcolumn : columnIndex < tupleDescriptor.natts) (hchunk : chunkIndex < stripeSkipList.chunkCount) :
    ∃ chunkList', readChunkRow tupleDescriptor stripeSkipList.chunkCount chunkList
        (chunkRowOfSkipNode tupleDescriptor columnIndex chunkIndex
          (stripeSkipList.chunkSkipNodeArray columnIndex chunkIndex)) = .ok chunkList' ∧
      ReadAgrees tupleDescriptor stripeSkipList chunkList' := by
  obtain ⟨hchunkCount, hcolumnCount, hagrees⟩ := hread
  have hattr : ¬(columnIndex + 1 = 0 ∨ columnIndex + 1 > chunkList.columnCount) := by omega
  have hrange : ¬(chunkIndex ≥ stripeSkipList.chunkCount) := by omega
  unfold readChunkRow chunkRowOfSkipNode
  cases hnode : (stripeSkipList.chunkSkipNodeArray columnIndex chunkIndex).hasMinMax with
  | false =>
      simp only [Bool.false_eq_true, ↓reduceIte, hattr, hrange, Nat.add_sub_cancel]
      refine ⟨_, rfl, hchunkCount, hcolumnCount, ?_⟩
      intro column index hhas
      by_cases hsame : column = columnIndex ∧ index = chunkIndex
      · -- the node read back has no bounds
        simp only [hsame, and_self, ↓reduceIte] at hhas
        exact absurd hhas Bool.false_ne_true
      · simp only [hsame, ↓reduceIte] at hhas ⊢
        exact hagrees column index hhas
  | true =>
      obtain ⟨hminimum, hmaximum⟩ := hbounds hnode
      simp only [↓reduceIte, hattr, hrange, Nat.add_sub_cancel]
      refine ⟨_, rfl, hchunkCount, hcolumnCount, ?_⟩
      intro column index hhas
      by_cases hsame : column = columnIndex ∧ index = chunkIndex
      · -- the bounds come back from their bytea unchanged
        obtain ⟨rfl, rfl⟩ := hsame
        simp only [and_self, ↓reduceIte]
        exact ⟨hcolumn, byteaToDatum_datumToBytea hminimum, byteaToDatum_datumToBytea hmaximum⟩
      · simp only [hsame, ↓reduceIte] at hhas ⊢
        exact hagrees column index hhas

/-- The rows `SaveStripeSkipList` writes read back without error into a skip list that
agrees with the saved one. -/
theorem readStripeSkipList_saveStripeSkipList
    {comparisonFunctionOf : Nat → Option (Nat → Datum → Datum → Ordering)} {chunkRowCount : Nat}
    {rows : List Row}
    (hcovers : StripeSkipListCovers comparisonFunctionOf tupleDescriptor chunkRowCount
      stripeSkipList rows) :
    ∃ chunkList, readStripeSkipList tupleDescriptor stripeSkipList.chunkCount
        (saveStripeSkipList tupleDescriptor stripeSkipList) = .ok chunkList ∧
      ReadAgrees tupleDescriptor stripeSkipList chunkList := by
  unfold readStripeSkipList
  apply EventRun.foldlM_except_invariant (ReadAgrees tupleDescriptor stripeSkipList)
  · -- zeroed nodes have no bounds
    exact ⟨rfl, rfl, fun _ _ hhas => absurd hhas Bool.false_ne_true⟩
  · intro chunkList chunkRow hmem hread
    obtain ⟨columnIndex, hcolumn, chunkIndex, hchunk, rfl⟩ :
        ∃ columnIndex < stripeSkipList.columnCount, ∃ chunkIndex < stripeSkipList.chunkCount,
          chunkRowOfSkipNode tupleDescriptor columnIndex chunkIndex
            (stripeSkipList.chunkSkipNodeArray columnIndex chunkIndex) = chunkRow := by
      simpa [saveStripeSkipList] using hmem
    rw [hcovers.columnCount_eq] at hcolumn
    exact readChunkRow_chunkRowOfSkipNode hread (hcovers.bounds_fit columnIndex chunkIndex)
      hcolumn hchunk

end Read

/-! ### Selecting chunk groups -/

/-- The constraint `BuildBaseConstraint` builds for a Var and `UpdateConstraint` fills
with a chunk group's bounds: `Var <= maximum AND Var >= minimum`. -/
structure BaseConstraint where
  varattno : Nat
  vartype : Nat
  varcollid : Nat
  minimumValue : Datum
  maximumValue : Datum
  deriving DecidableEq, Repr

section Filter

variable (comparisonFunctionOf : Nat → Option (Nat → Datum → Datum → Ordering))
  (tupleDescriptor : TupleDesc) {Clause : Type}
  (predicateRefutedBy : List BaseConstraint → List Clause → Bool → Bool)

/-- `BuildBaseConstraint` and `UpdateConstraint` for a Var of the relation. -/
def buildBaseConstraint (varattno : Nat) (minValue maxValue : Datum) : BaseConstraint :=
  let attrForm := tupleDescriptor.attrs (varattno - 1)
  ⟨varattno, attrForm.atttypid, attrForm.attcollation, minValue, maxValue⟩

/-- The value of a constraint on a row: the btree operators `<=` and `>=` of the Var's
type agree with its comparison function; a NULL makes the constraint NULL. -/
def evalBaseConstraint (constraint : BaseConstraint) (row : Row) : Option Bool :=
  match comparisonFunctionOf constraint.vartype with
  | none => none
  | some compare =>
      (columnValue row (constraint.varattno - 1)).map fun value =>
        (compare constraint.varcollid value constraint.maximumValue).isLE &&
          (compare constraint.varcollid value constraint.minimumValue).isGE

/-- `predicate_refuted_by` in its strong mode is sound: when it refutes a list of
predicates from a list of clauses, one of the predicates is false on every row on which
all the clauses are true. -/
def PredicateRefutedBySound (evalClause : Clause → Row → Option Bool) : Prop :=
  ∀ constraints clauses row, predicateRefutedBy constraints clauses false = true →
    (∀ clause ∈ clauses, evalClause clause row = some true) →
    ∃ constraint ∈ constraints, evalBaseConstraint comparisonFunctionOf constraint row = some false

/-- One chunk group of one Var in `SelectedChunkMask`: a group with bounds whose
constraint the clauses refute is skipped and counted. -/
def selectChunk (whereClauseList : List Clause) (stripeSkipList : StripeSkipList) (varattno : Nat)
    (state : List Bool × Nat) (chunkIndex : Nat) : List Bool × Nat :=
  let chunkSkipNode := stripeSkipList.chunkSkipNodeArray (varattno - 1) chunkIndex
  if !chunkSkipNode.hasMinMax then state
  else
    let constraint := buildBaseConstraint tupleDescriptor varattno chunkSkipNode.minimumValue
      chunkSkipNode.maximumValue
    if predicateRefutedBy [constraint] whereClauseList false && state.1.getD chunkIndex false then
      (state.1.set chunkIndex false, state.2 + 1)
    else state

/-- `SelectedChunkMask`: the chunk groups a scan reads, and how many it skips. A Var
whose type has no comparison function is passed over. -/
def selectedChunkMask (stripeSkipList : StripeSkipList) (whereClauseList : List Clause)
    (whereClauseVars : List Nat) : List Bool × Nat :=
  whereClauseVars.foldl
    (fun state varattno =>
      match comparisonFunctionOf (tupleDescriptor.attrs (varattno - 1)).atttypid with
      | none => state
      | some _ =>
          (List.range stripeSkipList.chunkCount).foldl
            (selectChunk tupleDescriptor predicateRefutedBy whereClauseList stripeSkipList varattno)
            state)
    (List.replicate stripeSkipList.chunkCount true, 0)

/-- A Var skips a chunk group: its type has a comparison function, the group has
bounds in the Var's column, and the clauses refute the group's constraint. -/
def SkippedBy (stripeSkipList : StripeSkipList) (whereClauseList : List Clause)
    (chunkIndex varattno : Nat) : Prop :=
  (comparisonFunctionOf (tupleDescriptor.attrs (varattno - 1)).atttypid).isSome ∧
    (stripeSkipList.chunkSkipNodeArray (varattno - 1) chunkIndex).hasMinMax = true ∧
    predicateRefutedBy
      [buildBaseConstraint tupleDescriptor varattno
        (stripeSkipList.chunkSkipNodeArray (varattno - 1) chunkIndex).minimumValue
        (stripeSkipList.chunkSkipNodeArray (varattno - 1) chunkIndex).maximumValue]
      whereClauseList false = true

/-- The mask `SelectedChunkMask` is building has a place per chunk group, and a group
is skipped only by a Var of the clauses that skips it. -/
def MaskSkips (stripeSkipList : StripeSkipList) (whereClauseList : List Clause)
    (whereClauseVars : List Nat) (state : List Bool × Nat) : Prop :=
  state.1.length = stripeSkipList.chunkCount ∧ ∀ chunkIndex, state.1[chunkIndex]? = some false →
    ∃ varattno ∈ whereClauseVars,
      SkippedBy comparisonFunctionOf tupleDescriptor predicateRefutedBy stripeSkipList
        whereClauseList chunkIndex varattno

variable {comparisonFunctionOf tupleDescriptor predicateRefutedBy}

/-- One chunk group of a Var whose type has a comparison function keeps the mask's
skipped groups skipped by a Var of the clauses. -/
theorem MaskSkips.selectChunk {stripeSkipList : StripeSkipList} {whereClauseList : List Clause}
    {whereClauseVars : List Nat} {varattno : Nat} {state : List Bool × Nat} (chunkIndex : Nat)
    (hvar : varattno ∈ whereClauseVars)
    (hcomparison : (comparisonFunctionOf (tupleDescriptor.attrs (varattno - 1)).atttypid).isSome)
    (hmask : MaskSkips comparisonFunctionOf tupleDescriptor predicateRefutedBy stripeSkipList
      whereClauseList whereClauseVars state) :
    MaskSkips comparisonFunctionOf tupleDescriptor predicateRefutedBy stripeSkipList
      whereClauseList whereClauseVars
      (selectChunk tupleDescriptor predicateRefutedBy whereClauseList stripeSkipList varattno
        state chunkIndex) := by
  obtain ⟨hlength, hskipped⟩ := hmask
  unfold ChunkGroupFilter.selectChunk
  dsimp only
  split_ifs with hbounds hrefuted
  · exact ⟨hlength, hskipped⟩
  · -- the group is skipped here, by this Var
    refine ⟨by rw [List.length_set, hlength], ?_⟩
    intro index hindex
    rw [List.getElem?_set] at hindex
    by_cases hsame : chunkIndex = index
    · subst hsame
      simp only [Bool.not_eq_true', Bool.not_eq_false] at hbounds
      simp only [Bool.and_eq_true] at hrefuted
      exact ⟨varattno, hvar, hcomparison, hbounds, hrefuted.1⟩
    · simp only [hsame, ↓reduceIte] at hindex
      exact hskipped index hindex
  · exact ⟨hlength, hskipped⟩

/-- A chunk group `SelectedChunkMask` skips is one of the stripe's, skipped by a Var of
the clauses. -/
theorem selectedChunkMask_skipped {stripeSkipList : StripeSkipList} {whereClauseList : List Clause}
    {whereClauseVars : List Nat} {chunkIndex : Nat}
    (hskipped : (selectedChunkMask comparisonFunctionOf tupleDescriptor predicateRefutedBy
      stripeSkipList whereClauseList whereClauseVars).1[chunkIndex]? = some false) :
    chunkIndex < stripeSkipList.chunkCount ∧ ∃ varattno ∈ whereClauseVars,
      SkippedBy comparisonFunctionOf tupleDescriptor predicateRefutedBy stripeSkipList
        whereClauseList chunkIndex varattno := by
  have hmask : MaskSkips comparisonFunctionOf tupleDescriptor predicateRefutedBy stripeSkipList
      whereClauseList whereClauseVars
      (selectedChunkMask comparisonFunctionOf tupleDescriptor predicateRefutedBy stripeSkipList
        whereClauseList whereClauseVars) := by
    -- no group is skipped before the first Var
    have hinit : MaskSkips comparisonFunctionOf tupleDescriptor predicateRefutedBy stripeSkipList
        whereClauseList whereClauseVars (List.replicate stripeSkipList.chunkCount true, 0) :=
      ⟨List.length_replicate, fun index hindex => by simp [List.getElem?_replicate] at hindex⟩
    unfold selectedChunkMask
    apply EventRun.foldl_invariant _ hinit
    -- each Var of the clauses passes over every chunk group
    intro state varattno hvar hstate
    cases hcomparison : comparisonFunctionOf (tupleDescriptor.attrs (varattno - 1)).atttypid with
    | none => exact hstate
    | some compare =>
        apply EventRun.foldl_invariant _ hstate
        intro state chunkIndex _ hstate
        exact hstate.selectChunk chunkIndex hvar (by rw [hcomparison]; rfl)
  obtain ⟨hlength, hskips⟩ := hmask
  refine ⟨?_, hskips chunkIndex hskipped⟩
  rw [← hlength]
  exact (List.getElem?_eq_some_iff.mp hskipped).1

/-- A constraint is not false on a row whose value in the Var's column lies between
its bounds, or is NULL. -/
theorem evalBaseConstraint_ne_false (hcompare : ComparisonFunctionsTransitive comparisonFunctionOf)
    {varattno : Nat} {minValue maxValue : Datum} {row : Row}
    {compare : Nat → Datum → Datum → Ordering}
    (hcomparison : comparisonFunctionOf (tupleDescriptor.attrs (varattno - 1)).atttypid = some compare)
    (hcovers : ∀ value, columnValue row (varattno - 1) = some value →
      (compare (tupleDescriptor.attrs (varattno - 1)).attcollation minValue value).isLE ∧
        (compare (tupleDescriptor.attrs (varattno - 1)).attcollation value maxValue).isLE) :
    evalBaseConstraint comparisonFunctionOf
      (buildBaseConstraint tupleDescriptor varattno minValue maxValue) row ≠ some false := by
  have := hcompare _ _ hcomparison
  unfold evalBaseConstraint buildBaseConstraint
  dsimp only
  rw [hcomparison]
  cases hvalue : columnValue row (varattno - 1) with
  | none => simp
  | some value =>
      obtain ⟨hminimum, hmaximum⟩ := hcovers value hvalue
      -- `value >= minimum` is `minimum <= value` read the other way
      have hswap : compare (tupleDescriptor.attrs (varattno - 1)).attcollation value minValue =
          (compare (tupleDescriptor.attrs (varattno - 1)).attcollation minValue value).swap :=
        Std.OrientedCmp.eq_swap
      have habove : (compare (tupleDescriptor.attrs (varattno - 1)).attcollation value
          minValue).isGE := by
        rw [hswap, Ordering.isGE_swap]
        exact hminimum
      simp [hmaximum, habove]

end Filter

/-- Chunk group filtering is sound: whatever rows of the tuple descriptor a writer
writes and whenever it flushes, every flushed stripe's rows of `columnar.chunk` read
back without error, and no row of a chunk group that `SelectedChunkMask` skips
satisfies all the clauses. -/
theorem selectedChunkMask_sound
    {comparisonFunctionOf : Nat → Option (Nat → Datum → Datum → Ordering)}
    {tupleDescriptor : TupleDesc} {Clause : Type}
    {predicateRefutedBy : List BaseConstraint → List Clause → Bool → Bool}
    (hcompare : ComparisonFunctionsTransitive comparisonFunctionOf)
    (evalClause : Clause → Row → Option Bool)
    (hrefuted : PredicateRefutedBySound comparisonFunctionOf predicateRefutedBy evalClause)
    (options : ColumnarOptions) (events : List ColumnarWriteEvent)
    (hrows : ∀ row, ColumnarWriteEvent.writeRow row ∈ events → RowFitsTupleDesc tupleDescriptor row) :
    ∀ stripe ∈ (events.foldl (columnarWriteStep comparisonFunctionOf tupleDescriptor options)
        ColumnarTable.empty).stripes,
      ∃ stripeSkipList, readStripeSkipList tupleDescriptor stripe.chunkCount stripe.chunkRows =
          .ok stripeSkipList ∧
        ∀ whereClauseList whereClauseVars rowIndex row, stripe.rows[rowIndex]? = some row →
          (selectedChunkMask comparisonFunctionOf tupleDescriptor predicateRefutedBy stripeSkipList
            whereClauseList whereClauseVars).1[rowIndex / options.chunkRowCount]? = some false →
          ∃ clause ∈ whereClauseList, evalClause clause row ≠ some true := by
  intro stripe hstripe
  obtain ⟨written, hchunkCount, hchunkRows, hcovers⟩ :=
    (TableCovers.run hcompare options events hrows).stripes stripe hstripe
  obtain ⟨chunkList, hread, hagrees⟩ := readStripeSkipList_saveStripeSkipList hcovers
  refine ⟨chunkList, by rw [hchunkCount, hchunkRows]; exact hread, ?_⟩
  intro whereClauseList whereClauseVars rowIndex row hrow hskipped
  obtain ⟨-, varattno, -, hsome, hbounds, hrefutes⟩ := selectedChunkMask_skipped hskipped
  obtain ⟨compare, hcomparison⟩ := Option.isSome_iff_exists.mp hsome
  obtain ⟨hcolumn, hminimum, hmaximum⟩ := hagrees.2.2 _ _ hbounds
  -- were every clause true on the row, the refuted constraint would be false on it
  by_contra hall
  obtain ⟨constraint, hmem, hfalse⟩ := hrefuted _ _ row hrefutes fun clause hclause => by
    by_contra hne
    exact hall ⟨clause, hclause, hne⟩
  rw [List.mem_singleton.mp hmem] at hfalse
  refine evalBaseConstraint_ne_false hcompare hcomparison (fun value hvalue => ?_) hfalse
  have hwritten := hcovers.covers rowIndex row (varattno - 1) value compare hrow hcolumn hvalue
    hcomparison
  rw [hminimum, hmaximum]
  exact ⟨hwritten.2.1, hwritten.2.2⟩

/-- Byte strings compared lexicographically under every collation. -/
def bytewiseComparison : Nat → Option (Nat → Datum → Datum → Ordering) :=
  fun _ => some fun _ => compare

/-- One varlena column. -/
def varlenaColumn : TupleDesc := ⟨1, fun _ => ⟨25, -1, false, .int, 100, by decide⟩⟩

/-- A clause `column = constant` on the first column. -/
def firstColumnEquals (constant : Datum) (row : Row) : Option Bool :=
  (columnValue row 0).map (· == constant)

/-- A refutation that finds a constraint on the first column whose bounds an equality
clause's constant lies outside. -/
def equalityRefutedBy (constraints : List BaseConstraint) (clauses : List Datum) (_ : Bool) : Bool :=
  constraints.any fun constraint => constraint.varattno == 1 && clauses.any fun constant =>
    compare constant constraint.maximumValue == .gt || compare constant constraint.minimumValue == .lt

theorem bytewiseComparison_transitive : ComparisonFunctionsTransitive bytewiseComparison := by
  intro typeId comparison hcomparison collation
  rw [← Option.some.inj hcomparison]
  exact inferInstanceAs (Std.TransCmp (compare : Datum → Datum → Ordering))

theorem equalityRefutedBy_sound :
    PredicateRefutedBySound bytewiseComparison equalityRefutedBy firstColumnEquals := by
  intro constraints clauses row hrefuted hclauses
  simp only [equalityRefutedBy, List.any_eq_true, Bool.and_eq_true, beq_iff_eq,
    Bool.or_eq_true] at hrefuted
  obtain ⟨constraint, hmem, hfirst, constant, hconstant, hout⟩ := hrefuted
  refine ⟨constraint, hmem, ?_⟩
  -- the equality clause holds, so the row's value is the constant
  have hvalue : columnValue row 0 = some constant := by
    have htrue := hclauses constant hconstant
    simp only [firstColumnEquals, Option.map_eq_some_iff, beq_iff_eq] at htrue
    obtain ⟨value, hvalue, rfl⟩ := htrue
    exact hvalue
  simp only [evalBaseConstraint, bytewiseComparison, hfirst, Nat.sub_self, hvalue,
    Option.map_some, Option.some.injEq]
  rcases hout with hgreater | hless
  · simp [hgreater]
  · simp [hless]

/-- Three one-character varlenas with one-byte headers, one NULL, in chunk groups of
two, then a flush. -/
def varlenaWriteEvents : List ColumnarWriteEvent :=
  [.writeRow [some [0x05, 0x41]], .writeRow [some [0x05, 0x45]], .writeRow [none],
    .flushPendingWrites]

theorem varlenaWriteEvents_rowsFit :
    ∀ row, ColumnarWriteEvent.writeRow row ∈ varlenaWriteEvents →
      RowFitsTupleDesc varlenaColumn row := by
  intro row hrow columnIndex hcolumn value hvalue
  have hfirst : columnIndex = 0 := by
    change columnIndex < 1 at hcolumn
    omega
  subst hfirst
  simp only [varlenaWriteEvents, List.mem_cons, ColumnarWriteEvent.writeRow.injEq,
    reduceCtorEq, List.not_mem_nil, or_false] at hrow
  -- each value carries its size in its header; the NULL has no value
  rcases hrow with rfl | rfl | rfl <;> simp only [columnValue, List.getD_cons_zero,
    reduceCtorEq, Option.some.injEq] at hvalue
  · subst hvalue
    exact datumFitsAttribute_of_shortVarlena rfl (by decide) (by decide) (by decide)
  · subst hvalue
    exact datumFitsAttribute_of_shortVarlena rfl (by decide) (by decide) (by decide)

theorem selectedChunkMask_sound_varlena :
    ComparisonFunctionsTransitive bytewiseComparison ∧
      PredicateRefutedBySound bytewiseComparison equalityRefutedBy firstColumnEquals ∧
      (∀ row, ColumnarWriteEvent.writeRow row ∈ varlenaWriteEvents →
        RowFitsTupleDesc varlenaColumn row) ∧
      ∀ stripe ∈ (varlenaWriteEvents.foldl
          (columnarWriteStep bytewiseComparison varlenaColumn ⟨2, 10⟩) ColumnarTable.empty).stripes,
        ∃ stripeSkipList, readStripeSkipList varlenaColumn stripe.chunkCount stripe.chunkRows =
            .ok stripeSkipList ∧
          ∀ whereClauseList whereClauseVars rowIndex row, stripe.rows[rowIndex]? = some row →
            (selectedChunkMask bytewiseComparison varlenaColumn equalityRefutedBy stripeSkipList
              whereClauseList whereClauseVars).1[rowIndex / 2]? = some false →
            ∃ clause ∈ whereClauseList, firstColumnEquals clause row ≠ some true :=
  ⟨bytewiseComparison_transitive, equalityRefutedBy_sound,
    varlenaWriteEvents_rowsFit,
    selectedChunkMask_sound bytewiseComparison_transitive firstColumnEquals equalityRefutedBy_sound
      ⟨2, 10⟩ varlenaWriteEvents varlenaWriteEvents_rowsFit⟩

/-- `column = 'I'` skips the chunk group holding `'A'` and `'E'`, and reads the one
whose only row is NULL. -/
example :
    ((varlenaWriteEvents.foldl (columnarWriteStep bytewiseComparison varlenaColumn ⟨2, 10⟩)
        ColumnarTable.empty).stripes.map fun stripe =>
      match readStripeSkipList varlenaColumn stripe.chunkCount stripe.chunkRows with
      | .ok stripeSkipList =>
          (selectedChunkMask bytewiseComparison varlenaColumn equalityRefutedBy stripeSkipList
            [[0x05, 0x49]] [1]).1
      | .error _ => []) = [[false, true]] := by
  decide

end Citus.Columnar.ChunkGroupFilter
