import Citus.Columnar.ItemPointer
import Mathlib

/-!
# Columnar storage: logical offsets, reservations and page writes

Columnar data lives at logical byte offsets. `LogicalToPhysical` maps an offset to a block
and to an offset on that block's page after the page header, so that every page holds
`COLUMNAR_BYTES_PER_PAGE` bytes of data, and `PhysicalToLogical` maps back.
`ColumnarStorageReserveData` hands out a range aligned on the start of a new page and
extends the relation to cover it. `ColumnarStorageWrite` and `ColumnarStorageRead` cut a
buffer into page-sized pieces; `WriteToBlock` appends a piece to a page through its
`pd_lower` cursor, and `ReadFromBlock` reads a piece below it.

This module is the model of those functions and one lemma for each that later proofs
cite: the two maps on offsets in range (they are inverse there), the aligned
reservation, the relation after an extension, and when a block write or read succeeds.

## Implementation notes

* Logical offsets (`uint64`) are natural numbers. Block numbers keep the 32-bit wrap of
  `BlockNumber`, which is where the maps stop being inverse.
* A relation is its number of blocks and one page per block. The metapage is kept as its
  `reservedOffset`, the one field these functions read, and `rd_id` for the messages.
* `ReadBuffer` of a block past the end fails; `ReadBuffer(P_NEW)` appends a zeroed page.
* `pd_upper - offset` is unsigned in the source; every offset written to is at most
  `pd_upper`, where the natural subtraction agrees.
-/

namespace Citus.Columnar

/-- `COLUMNAR_BYTES_PER_PAGE`. -/
def columnarBytesPerPage : Nat := blcksz - sizeOfPageHeaderData

/-- `ColumnarInvalidLogicalOffset`. -/
def columnarInvalidLogicalOffset : Nat := 0

/-- `ColumnarFirstLogicalOffset`: the first byte after the header of block 2. -/
def columnarFirstLogicalOffset : Nat := (blcksz - sizeOfPageHeaderData) * 2

/-- `ColumnarLogicalOffsetIsValid`. -/
def columnarLogicalOffsetIsValid (logicalOffset : Nat) : Bool :=
  decide (logicalOffset ≥ columnarFirstLogicalOffset)

/-- `PhysicalAddr`: a block and an offset on its page. -/
structure PhysicalAddr where
  blockno : UInt32
  offset : UInt32
  deriving DecidableEq, Repr

/-- `LogicalToPhysical`. -/
def logicalToPhysical (logicalOffset : Nat) : PhysicalAddr where
  blockno := (logicalOffset / columnarBytesPerPage).toUInt32
  offset := (sizeOfPageHeaderData + logicalOffset % columnarBytesPerPage).toUInt32

/-- `PhysicalToLogical`. -/
def physicalToLogical (addr : PhysicalAddr) : Nat :=
  columnarBytesPerPage * addr.blockno.toNat + addr.offset.toNat - sizeOfPageHeaderData

/-- A page as these functions see it: the header's `pd_lower` and `pd_upper`, and its
bytes. -/
structure Page where
  pdLower : Nat
  pdUpper : Nat
  bytes : Nat → UInt8

/-- `PageIsNew`: a page that was never initialized has `pd_upper = 0`. -/
def pageIsNew (page : Page) : Bool := page.pdUpper == 0

/-- The zeroed page `ReadBuffer(P_NEW)` appends. -/
def zeroPage : Page := ⟨0, 0, fun _ => 0⟩

/-- `PageInit(page, BLCKSZ, 0)`. -/
def pageInit : Page := ⟨sizeOfPageHeaderData, blcksz, fun _ => 0⟩

/-- `memcpy` of `buf` onto the page's bytes from `start` on. -/
def copyBytes (bytes : Nat → UInt8) (start : Nat) (buf : List UInt8) : Nat → UInt8 :=
  fun i => if start ≤ i ∧ i < start + buf.length then buf.getD (i - start) 0 else bytes i

/-- A columnar relation's main fork, with the metapage's `reservedOffset`. -/
structure ColumnarStorage where
  rdId : Nat
  reservedOffset : Nat
  nblocks : Nat
  pages : Nat → Page

namespace ColumnarStorage

/-- `ReadBuffer` of an existing block. -/
def readBuffer (rel : ColumnarStorage) (blockno : Nat) : Except String Page :=
  if blockno < rel.nblocks then .ok (rel.pages blockno)
  else .error ("could not read block " ++ toString blockno ++ " of relation " ++ toString rel.rdId)

/-- `ReadBuffer(rel, P_NEW)`: a zeroed page appended as block `nblocks`. -/
def extend (rel : ColumnarStorage) : ColumnarStorage :=
  { rel with nblocks := rel.nblocks + 1, pages := Function.update rel.pages rel.nblocks zeroPage }

/-- `count` pages appended one after another. -/
def extendBy (rel : ColumnarStorage) : Nat → ColumnarStorage
  | 0 => rel
  | count + 1 => rel.extend.extendBy count

/-- A page written back to its block. -/
def setPage (rel : ColumnarStorage) (blockno : Nat) (page : Page) : ColumnarStorage :=
  { rel with pages := Function.update rel.pages blockno page }

end ColumnarStorage

/-- `sizeof(ColumnarMetapage)`. -/
def sizeofColumnarMetapage : Nat := 48

/-- `ColumnarStorageInit`: the metapage in block 0 and an empty page in block 1. -/
def columnarStorageInit (rdId : Nat) : ColumnarStorage where
  rdId := rdId
  reservedOffset := columnarFirstLogicalOffset
  nblocks := 2
  pages := fun blockno =>
    if blockno = 0 then { pageInit with pdLower := sizeOfPageHeaderData + sizeofColumnarMetapage }
    else if blockno = 1 then pageInit else zeroPage

/-- `AlignReservation`: an offset inside a page moves to the start of the next page. -/
def alignReservation (prevReservation : Nat) : Nat :=
  let prevAddr := logicalToPhysical prevReservation
  if prevAddr.offset.toNat ≠ sizeOfPageHeaderData then
    physicalToLogical ⟨prevAddr.blockno + 1, sizeOfPageHeaderData.toUInt32⟩
  else prevReservation

/-- `ColumnarStorageReserveData`: the aligned offset, with the reservation recorded in
the metapage and the relation extended to the block of its last byte. -/
def columnarStorageReserveData (rel : ColumnarStorage) (amount : Nat) : ColumnarStorage × Nat :=
  if amount = 0 then (rel, columnarInvalidLogicalOffset)
  else
    let alignedReservation := alignReservation rel.reservedOffset
    let nextReservation := alignedReservation + amount
    let final := logicalToPhysical (nextReservation - 1)
    let rel := { rel with reservedOffset := nextReservation }
    -- `while (nblocks <= final.blockno)` appends one page a round
    (rel.extendBy (final.blockno.toNat + 1 - rel.nblocks), alignedReservation)

/-- `WriteToBlock`: append `buf` at `offset`, which must not be past `pd_lower`. -/
def writeToBlock (rel : ColumnarStorage) (blockno offset : UInt32) (buf : List UInt8)
    (clear : Bool) : Except String ColumnarStorage := do
  let page ← rel.readBuffer blockno.toNat
  let page := if pageIsNew page || clear then pageInit else page
  if page.pdLower < offset.toNat ∨ page.pdUpper - offset.toNat < buf.length then
    throw ("attempt to write columnar data of length " ++ toString buf.length ++ " to offset " ++
      toString offset ++ " of block " ++ toString blockno ++ " of relation " ++ toString rel.rdId)
  -- a write below `pd_lower` (over a rolled-back write) first rewinds it
  let lower := if page.pdLower > offset.toNat then offset.toNat else page.pdLower
  pure (rel.setPage blockno.toNat
    { page with pdLower := lower + buf.length, bytes := copyBytes page.bytes lower buf })

/-- `ReadFromBlock`: `len` bytes at `offset`, which must end below `pd_lower` unless
`force`. -/
def readFromBlock (rel : ColumnarStorage) (blockno offset : UInt32) (len : Nat) (force : Bool) :
    Except String (List UInt8) := do
  let page ← rel.readBuffer blockno.toNat
  if blcksz < offset.toNat + len ∨ (force = false ∧ page.pdLower < offset.toNat + len) then
    throw ("attempt to read columnar data of length " ++ toString len ++ " from offset " ++
      toString offset ++ " of block " ++ toString blockno ++ " of relation " ++ toString rel.rdId)
  pure ((List.range len).map fun i => page.bytes (offset.toNat + i))

/-- The loop of `ColumnarStorageWrite` from the offset `logicalOffset + written`, with the
bytes still to write. Each round writes at least one byte, so `amount` rounds suffice. -/
def columnarStorageWriteLoop :
    Nat → ColumnarStorage → Nat → List UInt8 → Except String ColumnarStorage
  | 0, rel, _, _ => .ok rel
  | _ + 1, rel, _, [] => .ok rel
  | fuel + 1, rel, logicalOffset, data@(_ :: _) => do
      let addr := logicalToPhysical logicalOffset
      let toWrite := min data.length (blcksz - addr.offset.toNat)
      let rel ← writeToBlock rel addr.blockno addr.offset (data.take toWrite) false
      columnarStorageWriteLoop fuel rel (logicalOffset + toWrite) (data.drop toWrite)

/-- `ColumnarStorageWrite`. -/
def columnarStorageWrite (rel : ColumnarStorage) (logicalOffset : Nat) (data : List UInt8) :
    Except String ColumnarStorage :=
  if data.length = 0 then .ok rel
  else if !columnarLogicalOffsetIsValid logicalOffset then
    .error ("attempted columnar write on relation " ++ toString rel.rdId ++
      " to invalid logical offset: " ++ toString logicalOffset)
  else columnarStorageWriteLoop data.length rel logicalOffset data

/-- The loop of `ColumnarStorageRead` from the offset `logicalOffset + read`, with the
number of bytes still to read. -/
def columnarStorageReadLoop (rel : ColumnarStorage) :
    Nat → Nat → Nat → Except String (List UInt8)
  | 0, _, _ => .ok []
  | _ + 1, _, 0 => .ok []
  | fuel + 1, logicalOffset, amount@(_ + 1) => do
      let addr := logicalToPhysical logicalOffset
      let toRead := min amount (blcksz - addr.offset.toNat)
      let piece ← readFromBlock rel addr.blockno addr.offset toRead false
      let rest ← columnarStorageReadLoop rel fuel (logicalOffset + toRead) (amount - toRead)
      pure (piece ++ rest)

/-- `ColumnarStorageRead`. -/
def columnarStorageRead (rel : ColumnarStorage) (logicalOffset amount : Nat) :
    Except String (List UInt8) :=
  if amount = 0 then .ok []
  else if !columnarLogicalOffsetIsValid logicalOffset then
    .error ("attempted columnar read on relation " ++ toString rel.rdId ++
      " from invalid logical offset: " ++ toString logicalOffset)
  else columnarStorageReadLoop rel amount logicalOffset amount

section Addresses

theorem columnarBytesPerPage_eq : columnarBytesPerPage = 8168 := rfl

theorem sizeOfPageHeaderData_eq : sizeOfPageHeaderData = 24 := rfl

theorem blcksz_eq : blcksz = 8192 := rfl

theorem columnarFirstLogicalOffset_eq : columnarFirstLogicalOffset = 16336 := rfl

/-- The block of a logical offset, with the wrap of `BlockNumber`. -/
theorem toNat_blockno_logicalToPhysical (logicalOffset : Nat) :
    (logicalToPhysical logicalOffset).blockno.toNat =
      logicalOffset / columnarBytesPerPage % 2 ^ 32 := by
  simp only [logicalToPhysical, Nat.toUInt32, UInt32.toNat_ofNat']

/-- The offset of a logical offset on its page: past the header, never past the page. -/
theorem toNat_offset_logicalToPhysical (logicalOffset : Nat) :
    (logicalToPhysical logicalOffset).offset.toNat =
      sizeOfPageHeaderData + logicalOffset % columnarBytesPerPage := by
  simp only [logicalToPhysical, Nat.toUInt32, UInt32.toNat_ofNat', columnarBytesPerPage_eq,
    sizeOfPageHeaderData_eq]
  omega

/-- Below `COLUMNAR_BYTES_PER_PAGE * 2^32` the block is the quotient itself. -/
theorem toNat_blockno_logicalToPhysical_of_lt {logicalOffset : Nat}
    (h : logicalOffset < columnarBytesPerPage * 2 ^ 32) :
    (logicalToPhysical logicalOffset).blockno.toNat = logicalOffset / columnarBytesPerPage := by
  rw [toNat_blockno_logicalToPhysical]
  rw [columnarBytesPerPage_eq] at h ⊢
  omega

theorem physicalToLogical_logicalToPhysical {logicalOffset : Nat}
    (h : logicalOffset < columnarBytesPerPage * 2 ^ 32) :
    physicalToLogical (logicalToPhysical logicalOffset) = logicalOffset := by
  unfold physicalToLogical
  rw [toNat_blockno_logicalToPhysical_of_lt h, toNat_offset_logicalToPhysical,
    columnarBytesPerPage_eq, sizeOfPageHeaderData_eq]
  omega

/-- At `COLUMNAR_BYTES_PER_PAGE * 2^32` the block number wraps: the first byte of block
`2^32` maps back to logical offset 0. -/
theorem logicalToPhysical_wraps :
    physicalToLogical (logicalToPhysical (columnarBytesPerPage * 2 ^ 32)) = 0 := by
  decide

theorem logicalToPhysical_physicalToLogical {addr : PhysicalAddr}
    (hlow : sizeOfPageHeaderData ≤ addr.offset.toNat) (hhigh : addr.offset.toNat < blcksz) :
    logicalToPhysical (physicalToLogical addr) = addr := by
  obtain ⟨blockno, offset⟩ := addr
  dsimp only at hlow hhigh
  have hblockno := blockno.toNat_lt
  rw [sizeOfPageHeaderData_eq] at hlow
  rw [blcksz_eq] at hhigh
  rw [PhysicalAddr.mk.injEq, ← UInt32.toNat_inj, ← UInt32.toNat_inj,
    toNat_blockno_logicalToPhysical, toNat_offset_logicalToPhysical]
  unfold physicalToLogical
  rw [columnarBytesPerPage_eq, sizeOfPageHeaderData_eq]
  dsimp only
  omega

/-- `AlignReservation` rounds up to a multiple of `COLUMNAR_BYTES_PER_PAGE` while the next
block number fits a `BlockNumber`. -/
theorem alignReservation_eq {prevReservation : Nat}
    (h : prevReservation / columnarBytesPerPage + 1 < 2 ^ 32) :
    alignReservation prevReservation =
      (prevReservation + columnarBytesPerPage - 1) / columnarBytesPerPage *
        columnarBytesPerPage := by
  unfold alignReservation
  dsimp only
  rw [toNat_offset_logicalToPhysical]
  rw [columnarBytesPerPage_eq] at h
  split_ifs with hoffset
  · unfold physicalToLogical
    rw [UInt32.toNat_add, toNat_blockno_logicalToPhysical]
    simp only [Nat.toUInt32, UInt32.toNat_ofNat', UInt32.toNat_one, columnarBytesPerPage_eq,
      sizeOfPageHeaderData_eq] at hoffset ⊢
    omega
  · rw [columnarBytesPerPage_eq, sizeOfPageHeaderData_eq] at *
    omega

end Addresses

namespace ColumnarStorage

variable {rel : ColumnarStorage}

@[simp] theorem nblocks_extendBy (count : Nat) :
    (rel.extendBy count).nblocks = rel.nblocks + count := by
  induction count generalizing rel with
  | zero => rfl
  | succ count ih =>
      rw [extendBy, ih]
      simp only [extend]
      omega

@[simp] theorem reservedOffset_extendBy (count : Nat) :
    (rel.extendBy count).reservedOffset = rel.reservedOffset := by
  induction count generalizing rel with
  | zero => rfl
  | succ count ih => rw [extendBy, ih]; rfl

@[simp] theorem rdId_extendBy (count : Nat) : (rel.extendBy count).rdId = rel.rdId := by
  induction count generalizing rel with
  | zero => rfl
  | succ count ih => rw [extendBy, ih]; rfl

/-- The appended blocks hold zeroed pages; the others keep theirs. -/
theorem pages_extendBy (count blockno : Nat) :
    (rel.extendBy count).pages blockno =
      if rel.nblocks ≤ blockno ∧ blockno < rel.nblocks + count then zeroPage
      else rel.pages blockno := by
  induction count generalizing rel with
  | zero =>
      rw [extendBy]
      split_ifs <;> first | rfl | omega
  | succ count ih =>
      rw [extendBy, ih]
      simp only [extend, Function.update_apply]
      split_ifs <;> first | rfl | omega

@[simp] theorem nblocks_setPage (blockno : Nat) (page : Page) :
    (rel.setPage blockno page).nblocks = rel.nblocks := rfl

@[simp] theorem reservedOffset_setPage (blockno : Nat) (page : Page) :
    (rel.setPage blockno page).reservedOffset = rel.reservedOffset := rfl

theorem pages_setPage (blockno : Nat) (page : Page) (other : Nat) :
    (rel.setPage blockno page).pages other = if other = blockno then page else rel.pages other :=
  Function.update_apply rel.pages blockno page other

end ColumnarStorage

/-- A positive reservation whose aligned end fits the block numbers: the metapage records
its end and the relation is extended through the block of its last byte. -/
theorem columnarStorageReserveData_eq {rel : ColumnarStorage} {amount : Nat} (hpos : 0 < amount)
    (hbound : alignReservation rel.reservedOffset + amount ≤ columnarBytesPerPage * 2 ^ 32) :
    columnarStorageReserveData rel amount =
      (({ rel with reservedOffset := alignReservation rel.reservedOffset + amount } :
          ColumnarStorage).extendBy
        ((alignReservation rel.reservedOffset + amount - 1) / columnarBytesPerPage + 1 -
          rel.nblocks),
        alignReservation rel.reservedOffset) := by
  unfold columnarStorageReserveData
  rw [if_neg (Nat.pos_iff_ne_zero.mp hpos)]
  dsimp only
  rw [toNat_blockno_logicalToPhysical_of_lt (by omega)]

section Blocks

variable {rel : ColumnarStorage} {blockno offset : UInt32}

theorem copyBytes_of_lt {bytes : Nat → UInt8} {start i : Nat} (buf : List UInt8)
    (h : i < start) : copyBytes bytes start buf i = bytes i := by
  unfold copyBytes
  rw [if_neg (by omega)]

theorem copyBytes_add {bytes : Nat → UInt8} {start j : Nat} {buf : List UInt8}
    (h : j < buf.length) : copyBytes bytes start buf (start + j) = buf.getD j 0 := by
  unfold copyBytes
  rw [if_pos (by omega), Nat.add_sub_cancel_left]

/-- A block write at the page's `pd_lower` that fits below `pd_upper` succeeds, and moves
`pd_lower` past the bytes it copies. -/
theorem writeToBlock_eq_ok {buf : List UInt8} {clear : Bool} {page : Page}
    (hblock : blockno.toNat < rel.nblocks)
    (hpage : (if pageIsNew (rel.pages blockno.toNat) || clear then pageInit
      else rel.pages blockno.toNat) = page)
    (hlower : page.pdLower = offset.toNat) (hupper : offset.toNat + buf.length ≤ page.pdUpper) :
    writeToBlock rel blockno offset buf clear =
      .ok (rel.setPage blockno.toNat { page with
        pdLower := offset.toNat + buf.length, bytes := copyBytes page.bytes offset.toNat buf }) := by
  have hfits : ¬ (page.pdLower < offset.toNat ∨ page.pdUpper - offset.toNat < buf.length) := by
    omega
  simp only [writeToBlock, ColumnarStorage.readBuffer, if_pos hblock, bind, Except.bind, hpage]
  rw [if_neg hfits, hlower, if_neg (Nat.lt_irrefl _)]
  rfl

/-- A block read that ends below the page's `pd_lower` returns the page's bytes. -/
theorem readFromBlock_eq_ok {len : Nat} (hblock : blockno.toNat < rel.nblocks)
    (hend : offset.toNat + len ≤ blcksz)
    (hlower : offset.toNat + len ≤ (rel.pages blockno.toNat).pdLower) :
    readFromBlock rel blockno offset len false =
      .ok ((List.range len).map fun i => (rel.pages blockno.toNat).bytes (offset.toNat + i)) := by
  have hfits : ¬ (blcksz < offset.toNat + len ∨
      (True ∧ (rel.pages blockno.toNat).pdLower < offset.toNat + len)) := by
    omega
  simp only [readFromBlock, ColumnarStorage.readBuffer, if_pos hblock, bind, Except.bind]
  rw [if_neg hfits]
  rfl

end Blocks

end Citus.Columnar
