import Mathlib

/-!
# Row numbers as item pointers

A columnar table hands PostgreSQL each row's number as the item pointer of a
virtual heap tuple: `row_number_to_tid` puts `VALID_ITEMPOINTER_OFFSETS` row numbers
on each block, at offsets from `FirstOffsetNumber` on, and `tid_to_row_number` reads
the number back. Both reject what `ErrorIfInvalidRowNumber` rejects.

For every accepted row number the map round-trips and is strictly increasing in
`ItemPointerCompare` order, and a TID with an offset in
`[FirstOffsetNumber, MaxHeapTuplesPerPage]` that `tid_to_row_number` accepts is the
image of its row number. The block stays in `[0, MaxBlockNumber]` exactly below
`VALID_ITEMPOINTER_OFFSETS * VALID_BLOCKNUMBERS`, which `COLUMNAR_MAX_ROW_NUMBER`
exceeds by one: the two highest accepted row numbers land on `InvalidBlockNumber`.

## Implementation notes

* PostgreSQL's page constants are those of the default 8 kB block.
* The two 16-bit halves of a block id are read as one `BlockNumber`.
-/

namespace Citus.Columnar

/-- `BLCKSZ`. -/
def blcksz : Nat := 8192

/-- `SizeOfPageHeaderData`. -/
def sizeOfPageHeaderData : Nat := 24

/-- `MaxHeapTuplesPerPage`: the page after its header, divided by the aligned tuple
header (`MAXALIGN(SizeofHeapTupleHeader)`) and its line pointer. -/
def maxHeapTuplesPerPage : Nat := (blcksz - sizeOfPageHeaderData) / (24 + 4)

/-- `FirstOffsetNumber`. -/
def firstOffsetNumber : Nat := 1

/-- `MaxBlockNumber`. -/
def maxBlockNumber : Nat := 0xFFFFFFFE

/-- `InvalidBlockNumber`. -/
def invalidBlockNumber : Nat := 0xFFFFFFFF

/-- `VALID_ITEMPOINTER_OFFSETS`. -/
def validItempointerOffsets : Nat := maxHeapTuplesPerPage - firstOffsetNumber + 1

/-- `VALID_BLOCKNUMBERS`. -/
def validBlocknumbers : Nat := maxBlockNumber + 1

/-- `COLUMNAR_INVALID_ROW_NUMBER`. -/
def columnarInvalidRowNumber : Nat := 0

/-- `COLUMNAR_FIRST_ROW_NUMBER`. -/
def columnarFirstRowNumber : Nat := 1

/-- `COLUMNAR_MAX_ROW_NUMBER`. -/
def columnarMaxRowNumber : Nat :=
  columnarFirstRowNumber + validItempointerOffsets * validBlocknumbers

/-- `ItemPointerData`: a block number and an offset in the block. -/
structure ItemPointerData where
  blockNumber : UInt32
  offsetNumber : UInt16
  deriving DecidableEq, Repr

/-- `ErrorIfInvalidRowNumber`. -/
def errorIfInvalidRowNumber (rowNumber : UInt64) : Except String Unit :=
  if rowNumber.toNat = columnarInvalidRowNumber then
    .error "unexpected row number for columnar table"
  else if rowNumber.toNat > columnarMaxRowNumber then
    .error ("columnar tables can't have row numbers greater than " ++
      toString columnarMaxRowNumber)
  else .ok ()

/-- `row_number_to_tid`: the block is the quotient by the offsets per block, stored
as a `BlockNumber`; the offset the remainder from `FirstOffsetNumber` on, stored as an
`OffsetNumber`. -/
def rowNumberToTid (rowNumber : UInt64) : Except String ItemPointerData := do
  errorIfInvalidRowNumber rowNumber
  pure ⟨(rowNumber / validItempointerOffsets.toUInt64).toUInt32,
    (rowNumber % validItempointerOffsets.toUInt64 + firstOffsetNumber.toUInt64).toUInt16⟩

/-- `tid_to_row_number`, in `uint64` arithmetic. -/
def tidToRowNumber (tid : ItemPointerData) : Except String UInt64 := do
  let rowNumber := tid.blockNumber.toUInt64 * validItempointerOffsets.toUInt64 +
    tid.offsetNumber.toUInt64 - firstOffsetNumber.toUInt64
  errorIfInvalidRowNumber rowNumber
  pure rowNumber

/-- `ItemPointerCompare`: by block number, then by offset. -/
def itemPointerCompare (arg1 arg2 : ItemPointerData) : Int :=
  if arg1.blockNumber < arg2.blockNumber then -1
  else if arg1.blockNumber > arg2.blockNumber then 1
  else if arg1.offsetNumber < arg2.offsetNumber then -1
  else if arg1.offsetNumber > arg2.offsetNumber then 1
  else 0

/-- `ItemPointerSetInvalid`. -/
def invalidItemPointer : ItemPointerData := ⟨invalidBlockNumber.toUInt32, 0⟩

/-- `ColumnarGetHighestItemPointer`, given the highest row number of the stripe with
the highest row number, `none` when there is no such stripe. -/
def columnarGetHighestItemPointer (highestRowNumber : Option UInt64) :
    Except String ItemPointerData :=
  match highestRowNumber with
  | none => .ok invalidItemPointer
  | some highestRowNumber =>
      if highestRowNumber = 0 then .ok invalidItemPointer else rowNumberToTid highestRowNumber

/-- `ColumnarGetNumberOfVirtualBlocks`: the highest block plus one, as a
`BlockNumber`; zero when the highest item pointer is not valid (offset zero). -/
def columnarGetNumberOfVirtualBlocks (highestRowNumber : Option UInt64) :
    Except String UInt32 := do
  let highestItemPointer ← columnarGetHighestItemPointer highestRowNumber
  if highestItemPointer.offsetNumber = 0 then pure 0
  else pure (highestItemPointer.blockNumber + 1)

theorem validItempointerOffsets_eq : validItempointerOffsets = 291 := by decide

theorem columnarMaxRowNumber_eq : columnarMaxRowNumber = 1 + 291 * (2 ^ 32 - 1) := by decide

/-- The row numbers `ErrorIfInvalidRowNumber` accepts. -/
theorem errorIfInvalidRowNumber_eq_ok {rowNumber : UInt64} :
    errorIfInvalidRowNumber rowNumber = .ok () ↔
      1 ≤ rowNumber.toNat ∧ rowNumber.toNat ≤ columnarMaxRowNumber := by
  unfold errorIfInvalidRowNumber columnarInvalidRowNumber
  split_ifs <;> simp <;> omega

section Mapping

variable {rowNumber : UInt64} {tid : ItemPointerData}

private theorem toNat_validItempointerOffsets :
    (validItempointerOffsets.toUInt64).toNat = 291 := by
  rw [validItempointerOffsets_eq]
  rfl

private theorem toNat_firstOffsetNumber : (firstOffsetNumber.toUInt64).toNat = 1 := rfl

/-- The block `row_number_to_tid` stores: the quotient, which fits a `BlockNumber` for
every row number up to `COLUMNAR_MAX_ROW_NUMBER`. -/
theorem toNat_tidBlockNumber (hbound : rowNumber.toNat ≤ columnarMaxRowNumber) :
    ((rowNumber / validItempointerOffsets.toUInt64).toUInt32).toNat = rowNumber.toNat / 291 := by
  rw [columnarMaxRowNumber_eq] at hbound
  simp only [UInt64.toNat_toUInt32, UInt64.toNat_div, toNat_validItempointerOffsets]
  omega

/-- The offset `row_number_to_tid` stores: the remainder from `FirstOffsetNumber` on. -/
theorem toNat_tidOffsetNumber (rowNumber : UInt64) :
    ((rowNumber % validItempointerOffsets.toUInt64 + firstOffsetNumber.toUInt64).toUInt16).toNat =
      rowNumber.toNat % 291 + 1 := by
  simp only [UInt64.toNat_toUInt16, UInt64.toNat_add, UInt64.toNat_mod,
    toNat_validItempointerOffsets, toNat_firstOffsetNumber]
  omega

/-- The row number `tid_to_row_number` computes, with the `uint64` wrap of its final
subtraction. -/
theorem toNat_tidRowNumber (tid : ItemPointerData) :
    (tid.blockNumber.toUInt64 * validItempointerOffsets.toUInt64 + tid.offsetNumber.toUInt64 -
        firstOffsetNumber.toUInt64).toNat =
      (tid.blockNumber.toNat * 291 + tid.offsetNumber.toNat + 2 ^ 64 - 1) % 2 ^ 64 := by
  simp only [UInt64.toNat_sub, UInt64.toNat_add, UInt64.toNat_mul, UInt32.toNat_toUInt64,
    UInt16.toNat_toUInt64, toNat_validItempointerOffsets, toNat_firstOffsetNumber]
  have := tid.blockNumber.toNat_lt
  have := tid.offsetNumber.toNat_lt
  omega

/-- `row_number_to_tid` succeeds exactly on the accepted row numbers, with block
`r / VALID_ITEMPOINTER_OFFSETS` and offset `r % VALID_ITEMPOINTER_OFFSETS + 1`. -/
theorem rowNumberToTid_eq_ok_iff :
    rowNumberToTid rowNumber = .ok tid ↔
      errorIfInvalidRowNumber rowNumber = .ok () ∧ tid.blockNumber.toNat = rowNumber.toNat / 291 ∧
        tid.offsetNumber.toNat = rowNumber.toNat % 291 + 1 := by
  unfold rowNumberToTid
  cases haccepted : errorIfInvalidRowNumber rowNumber with
  | error e => simp [bind, Except.bind]
  | ok u =>
      have hbound := (errorIfInvalidRowNumber_eq_ok.mp haccepted).2
      rw [← toNat_tidBlockNumber hbound, ← toNat_tidOffsetNumber rowNumber]
      cases tid with
      | mk blockNumber offsetNumber =>
          simp only [bind, Except.bind, pure, Except.pure, Except.ok.injEq, ItemPointerData.mk.injEq,
            true_and]
          constructor
          · rintro ⟨rfl, rfl⟩
            exact ⟨rfl, rfl⟩
          · rintro ⟨hblock, hoffset⟩
            exact ⟨UInt32.toNat_inj.mp hblock.symm, UInt16.toNat_inj.mp hoffset.symm⟩

/-- `tid_to_row_number` succeeds with the row number it computes when that is accepted. -/
theorem tidToRowNumber_eq_ok_iff :
    tidToRowNumber tid = .ok rowNumber ↔
      errorIfInvalidRowNumber rowNumber = .ok () ∧
        rowNumber.toNat = (tid.blockNumber.toNat * 291 + tid.offsetNumber.toNat + 2 ^ 64 - 1) %
          2 ^ 64 := by
  rw [← toNat_tidRowNumber]
  unfold tidToRowNumber
  dsimp only
  generalize tid.blockNumber.toUInt64 * validItempointerOffsets.toUInt64 +
    tid.offsetNumber.toUInt64 - firstOffsetNumber.toUInt64 = computed
  rw [UInt64.toNat_inj]
  cases haccepted : errorIfInvalidRowNumber computed with
  | error e =>
      simp only [bind, Except.bind, reduceCtorEq, false_iff, not_and]
      rintro hrow rfl
      rw [hrow] at haccepted
      cases haccepted
  | ok u =>
      simp only [bind, Except.bind, pure, Except.pure, Except.ok.injEq]
      constructor
      · rintro rfl
        exact ⟨haccepted, rfl⟩
      · rintro ⟨-, rfl⟩
        rfl

/-- Every accepted row number has a TID, with an offset in
`[FirstOffsetNumber, MaxHeapTuplesPerPage]`, that `tid_to_row_number` maps back to it. -/
theorem tidToRowNumber_rowNumberToTid (haccepted : errorIfInvalidRowNumber rowNumber = .ok ()) :
    ∃ tid, rowNumberToTid rowNumber = .ok tid ∧ tidToRowNumber tid = .ok rowNumber ∧
      firstOffsetNumber ≤ tid.offsetNumber.toNat ∧ tid.offsetNumber.toNat ≤ maxHeapTuplesPerPage := by
  have hbound := (errorIfInvalidRowNumber_eq_ok.mp haccepted).2
  refine ⟨⟨(rowNumber / validItempointerOffsets.toUInt64).toUInt32,
    (rowNumber % validItempointerOffsets.toUInt64 + firstOffsetNumber.toUInt64).toUInt16⟩,
    ?_, ?_, ?_⟩
  · exact rowNumberToTid_eq_ok_iff.mpr
      ⟨haccepted, toNat_tidBlockNumber hbound, toNat_tidOffsetNumber rowNumber⟩
  · apply tidToRowNumber_eq_ok_iff.mpr
    refine ⟨haccepted, ?_⟩
    simp only [toNat_tidBlockNumber hbound, toNat_tidOffsetNumber]
    have := rowNumber.toNat_lt
    omega
  · rw [toNat_tidOffsetNumber]
    simp only [firstOffsetNumber, maxHeapTuplesPerPage, blcksz, sizeOfPageHeaderData]
    omega

theorem tidToRowNumber_rowNumberToTid_five :
    errorIfInvalidRowNumber 5 = .ok () ∧
      ∃ tid, rowNumberToTid 5 = .ok tid ∧ tidToRowNumber tid = .ok 5 ∧
        firstOffsetNumber ≤ tid.offsetNumber.toNat ∧
        tid.offsetNumber.toNat ≤ maxHeapTuplesPerPage :=
  ⟨rfl, tidToRowNumber_rowNumberToTid rfl⟩

/-- A larger accepted row number has a larger TID in `ItemPointerCompare` order. -/
theorem itemPointerCompare_rowNumberToTid {rowNumber' : UInt64} {tid' : ItemPointerData}
    (htid : rowNumberToTid rowNumber = .ok tid) (htid' : rowNumberToTid rowNumber' = .ok tid')
    (hlt : rowNumber < rowNumber') : itemPointerCompare tid tid' = -1 := by
  obtain ⟨-, hblock, hoffset⟩ := rowNumberToTid_eq_ok_iff.mp htid
  obtain ⟨-, hblock', hoffset'⟩ := rowNumberToTid_eq_ok_iff.mp htid'
  have hlt' : rowNumber.toNat < rowNumber'.toNat := UInt64.lt_iff_toNat_lt.mp hlt
  unfold itemPointerCompare
  by_cases hbefore : tid.blockNumber < tid'.blockNumber
  · rw [if_pos hbefore]
  · -- the same block: the larger row number has the larger offset
    have hsame : tid.blockNumber.toNat = tid'.blockNumber.toNat := by
      rw [UInt32.lt_iff_toNat_lt] at hbefore
      omega
    have hafter : ¬tid.blockNumber > tid'.blockNumber := by
      rw [gt_iff_lt, UInt32.lt_iff_toNat_lt]
      omega
    have hoffsetLt : tid.offsetNumber < tid'.offsetNumber := by
      rw [UInt16.lt_iff_toNat_lt]
      omega
    rw [if_neg hbefore, if_neg hafter, if_pos hoffsetLt]

theorem itemPointerCompare_rowNumberToTid_page_break :
    rowNumberToTid 290 = .ok ⟨0, 291⟩ ∧ rowNumberToTid 291 = .ok ⟨1, 1⟩ ∧
      (290 : UInt64) < 291 ∧ itemPointerCompare ⟨0, 291⟩ ⟨1, 1⟩ = -1 :=
  ⟨rfl, rfl, by decide,
    @itemPointerCompare_rowNumberToTid 290 ⟨0, 291⟩ 291 ⟨1, 1⟩ rfl rfl (by decide)⟩

/-- The block of an accepted row number is at most `MaxBlockNumber` exactly when the
row number is below `VALID_ITEMPOINTER_OFFSETS * VALID_BLOCKNUMBERS`. -/
theorem blockNumber_le_maxBlockNumber_iff (htid : rowNumberToTid rowNumber = .ok tid) :
    tid.blockNumber.toNat ≤ maxBlockNumber ↔
      rowNumber.toNat < validItempointerOffsets * validBlocknumbers := by
  obtain ⟨-, hblock, -⟩ := rowNumberToTid_eq_ok_iff.mp htid
  rw [hblock, validItempointerOffsets_eq]
  unfold validBlocknumbers maxBlockNumber
  omega

theorem blockNumber_le_maxBlockNumber_iff_five :
    rowNumberToTid 5 = .ok ⟨0, 6⟩ ∧
      ((⟨0, 6⟩ : ItemPointerData).blockNumber.toNat ≤ maxBlockNumber ↔
        (5 : UInt64).toNat < validItempointerOffsets * validBlocknumbers) :=
  ⟨rfl, blockNumber_le_maxBlockNumber_iff rfl⟩

/-- A TID that `tid_to_row_number` accepts and whose offset lies in
`[FirstOffsetNumber, MaxHeapTuplesPerPage]` is the TID of its row number. -/
theorem rowNumberToTid_tidToRowNumber (hrow : tidToRowNumber tid = .ok rowNumber)
    (hfirst : firstOffsetNumber ≤ tid.offsetNumber.toNat)
    (hlast : tid.offsetNumber.toNat ≤ maxHeapTuplesPerPage) :
    rowNumberToTid rowNumber = .ok tid := by
  obtain ⟨haccepted, hvalue⟩ := tidToRowNumber_eq_ok_iff.mp hrow
  have hblock := tid.blockNumber.toNat_lt
  simp only [firstOffsetNumber, maxHeapTuplesPerPage, blcksz, sizeOfPageHeaderData] at hfirst hlast
  -- with a positive offset the final subtraction does not wrap
  have hshift : tid.blockNumber.toNat * 291 + tid.offsetNumber.toNat + 2 ^ 64 - 1 =
      (tid.blockNumber.toNat * 291 + tid.offsetNumber.toNat - 1) + 2 ^ 64 := by
    omega
  rw [hshift, Nat.add_mod_right, Nat.mod_eq_of_lt (by omega)] at hvalue
  apply rowNumberToTid_eq_ok_iff.mpr
  refine ⟨haccepted, ?_, ?_⟩ <;> omega

theorem rowNumberToTid_tidToRowNumber_first :
    tidToRowNumber ⟨1, 1⟩ = .ok 291 ∧ firstOffsetNumber ≤ (1 : UInt16).toNat ∧
      (1 : UInt16).toNat ≤ maxHeapTuplesPerPage ∧ rowNumberToTid 291 = .ok ⟨1, 1⟩ :=
  ⟨rfl, by decide, by decide, rowNumberToTid_tidToRowNumber rfl (by decide) (by decide)⟩

end Mapping

/-- `row_number_to_tid` of the two highest accepted row numbers gives the block
`InvalidBlockNumber`, and the count of virtual blocks wraps to zero;
`tid_to_row_number` accepts an offset past `MaxHeapTuplesPerPage` as another TID's
row number. -/
theorem rowNumberToTid_invalidBlockNumber :
    (1249835482846 : UInt64).toNat = columnarMaxRowNumber ∧
      rowNumberToTid 1249835482845 = .ok ⟨0xFFFFFFFF, 1⟩ ∧
      rowNumberToTid 1249835482846 = .ok ⟨0xFFFFFFFF, 2⟩ ∧
      (0xFFFFFFFF : UInt32).toNat = invalidBlockNumber ∧ maxBlockNumber < invalidBlockNumber ∧
      columnarGetNumberOfVirtualBlocks (some 1249835482846) = .ok 0 ∧
      tidToRowNumber ⟨0, 292⟩ = .ok 291 ∧ rowNumberToTid 291 = .ok ⟨1, 1⟩ := by
  refine ⟨by decide, rfl, rfl, by decide, by decide, rfl, rfl, rfl⟩

end Citus.Columnar
