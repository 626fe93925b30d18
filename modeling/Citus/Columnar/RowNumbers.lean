import Citus.Lib.Run
import Mathlib

/-!
# Row numbers of columnar stripes

A columnar table numbers its rows (`columnar_storage.c`, `columnar_writer.c`,
`columnar_metadata.c`). When a writer starts a stripe, `ReserveEmptyStripe` takes a
stripe id and a range of `stripeRowCount` row numbers from counters in the metapage,
under the relation's extension lock, and inserts an empty row for the stripe into
`columnar.stripe`. `ColumnarWriteRow` numbers each row by its place in the stripe and
flushes the stripe when it is full; `FlushStripe` writes the stripe's row count into
its catalog row. `FindStripeByRowNumber` takes the stripe with the greatest first row
number at most the given one and checks that the row is below its highest row number.

Writers interleave freely, flush whenever they like, and any stripe may be aborted.
As long as the row-number counter does not wrap round its 64 bits and no stripe is
longer than the 32-bit row count of `StripeBuffers`, the row numbers are distinct and
each is found in the stripe that wrote it (`columnarWriteRow_rowNumbers`). A writer
with `stripeRowCount = 2^64 - 1` wraps the counter round to `0`, and the next writer's
rows take numbers already given out (`columnarWriteRow_rowNumbers_wrap`).

## Implementation notes

* A stripe's catalog row is kept by the fields row numbers read, with the row count
  that was reserved for it, which the catalog does not store.
* The writer keeps the reservation of its stripe and the row count of its stripe
  buffers while it has them; the source keeps its last reservation after a flush, but
  reads it only with stripe buffers.
* The stripes a lookup sees are those of a snapshot in which no aborted stripe is
  visible.
-/

namespace Citus.Columnar

/-- A row of `columnar.stripe`, by the fields row numbers read, with the number of
rows `ReserveEmptyStripe` reserved for the stripe. -/
structure StripeMetadata where
  id : UInt64
  firstRowNumber : UInt64
  rowCount : UInt64
  aborted : Bool
  reservedRowCount : UInt64
  deriving DecidableEq, Repr

/-- `EmptyStripeReservation`. -/
structure EmptyStripeReservation where
  stripeId : UInt64
  stripeFirstRowNumber : UInt64
  deriving DecidableEq, Repr

/-- A writer's `ColumnarWriteState`: the stripe row count of its options and, while it
has stripe buffers, the reservation of its stripe and the buffers' row count. -/
structure ColumnarWriteState where
  stripeRowCount : UInt64
  stripe : Option (EmptyStripeReservation × UInt32)
  deriving DecidableEq, Repr

/-- A columnar table: the counters of its metapage, its stripes, its writers, and
every row number `ColumnarWriteRow` returned with the stripe it went to. -/
structure ColumnarTable where
  reservedStripeId : UInt64
  reservedRowNumber : UInt64
  stripes : List StripeMetadata
  writers : Nat → Option ColumnarWriteState
  writtenRows : List (UInt64 × UInt64)

namespace ColumnarTable

/-- A new table: `COLUMNAR_FIRST_STRIPE_ID` and `COLUMNAR_FIRST_ROW_NUMBER` are `1`. -/
def empty : ColumnarTable := ⟨1, 1, [], fun _ => none, []⟩

/-- `ColumnarStorageReserveStripeId`. -/
def reserveStripeId (table : ColumnarTable) : ColumnarTable × UInt64 :=
  ({ table with reservedStripeId := table.reservedStripeId + 1 }, table.reservedStripeId)

/-- `ColumnarStorageReserveRowNumber`. -/
def reserveRowNumber (table : ColumnarTable) (nrows : UInt64) : ColumnarTable × UInt64 :=
  ({ table with reservedRowNumber := table.reservedRowNumber + nrows }, table.reservedRowNumber)

/-- `ReserveEmptyStripe`, with `InsertEmptyStripeMetadataRow`. -/
def reserveEmptyStripe (table : ColumnarTable) (stripeRowCount : UInt64) :
    ColumnarTable × EmptyStripeReservation :=
  let (table, stripeId) := table.reserveStripeId
  let (table, stripeFirstRowNumber) := table.reserveRowNumber stripeRowCount
  ({ table with
      stripes := table.stripes ++ [⟨stripeId, stripeFirstRowNumber, 0, false, stripeRowCount⟩] },
    ⟨stripeId, stripeFirstRowNumber⟩)

/-- `CompleteStripeReservation`: the stripe's row count is updated in place. -/
def completeStripeReservation (table : ColumnarTable) (stripeId rowCount : UInt64) :
    ColumnarTable :=
  { table with
    stripes := table.stripes.map fun stripe =>
      if stripe.id = stripeId then { stripe with rowCount := rowCount } else stripe }

/-- `ColumnarFlushPendingWrites`: `FlushStripe` records the rows of the writer's stripe,
and its stripe buffers are dropped. -/
def flushPendingWrites (table : ColumnarTable) (writeState : ColumnarWriteState) :
    ColumnarTable × ColumnarWriteState :=
  match writeState.stripe with
  | some (reservation, rowCount) =>
      (table.completeStripeReservation reservation.stripeId rowCount.toUInt64,
        { writeState with stripe := none })
  | none => (table, writeState)

/-- The start of `ColumnarWriteRow`: a writer without stripe buffers reserves a stripe. -/
def createStripe (table : ColumnarTable) (writeState : ColumnarWriteState) :
    ColumnarTable × EmptyStripeReservation × UInt32 :=
  match writeState.stripe with
  | some (reservation, rowCount) => (table, reservation, rowCount)
  | none =>
      let (table, reservation) := table.reserveEmptyStripe writeState.stripeRowCount
      (table, reservation, 0)

/-- `ColumnarWriteRow`, as far as row numbers go: the row is numbered by its place in
the stripe, and a full stripe is flushed. -/
def columnarWriteRow (table : ColumnarTable) (writeState : ColumnarWriteState) :
    ColumnarTable × ColumnarWriteState × UInt64 :=
  let (table, reservation, rowCount) := table.createStripe writeState
  let writtenRowNumber := reservation.stripeFirstRowNumber + rowCount.toUInt64
  let writeState := { writeState with stripe := some (reservation, rowCount + 1) }
  let (table, writeState) :=
    if (rowCount + 1).toUInt64 ≥ writeState.stripeRowCount then table.flushPendingWrites writeState
    else (table, writeState)
  (table, writeState, writtenRowNumber)

/-- The stripes a snapshot sees: those not aborted. -/
def visibleStripes (table : ColumnarTable) : List StripeMetadata :=
  table.stripes.filter fun stripe => !stripe.aborted

end ColumnarTable

/-- One stripe of `StripeMetadataLookupRowNumber`'s scan in `FIND_LESS_OR_EQUAL` mode:
the first match, or a match with a greater first row number, replaces the one found. -/
def lookupStep (rowNumber : UInt64) (foundStripeMetadata : Option StripeMetadata)
    (stripe : StripeMetadata) : Option StripeMetadata :=
  if stripe.firstRowNumber ≤ rowNumber then
    match foundStripeMetadata with
    | none => some stripe
    | some found => if stripe.firstRowNumber > found.firstRowNumber then some stripe else some found
  else foundStripeMetadata

/-- `StripeMetadataLookupRowNumber` in `FIND_LESS_OR_EQUAL` mode: the stripe with the
greatest first row number at most `rowNumber`. -/
def stripeMetadataLookupRowNumber (stripes : List StripeMetadata) (rowNumber : UInt64) :
    Option StripeMetadata :=
  stripes.foldl (lookupStep rowNumber) none

/-- `StripeGetHighestRowNumber`. -/
def stripeGetHighestRowNumber (stripeMetadata : StripeMetadata) : UInt64 :=
  stripeMetadata.firstRowNumber + stripeMetadata.rowCount - 1

/-- `FindStripeByRowNumber`. -/
def findStripeByRowNumber (stripes : List StripeMetadata) (rowNumber : UInt64) :
    Option StripeMetadata :=
  match stripeMetadataLookupRowNumber stripes rowNumber with
  | none => none
  | some stripeMetadata =>
      if rowNumber > stripeGetHighestRowNumber stripeMetadata then none else some stripeMetadata

/-- What happens to a columnar table. -/
inductive ColumnarEvent
  /-- `ColumnarBeginWrite` for a new writer with its stripe row count. -/
  | beginWrite (writer : Nat) (stripeRowCount : UInt64)
  | writeRow (writer : Nat)
  /-- `ColumnarFlushPendingWrites`, as at `ColumnarEndWrite`. -/
  | flush (writer : Nat)
  /-- The transaction that inserted the stripe aborts, with any writer still on it. -/
  | abortStripe (stripeId : UInt64)

/-- One event, if it is enabled. -/
def columnarStep (table : ColumnarTable) : ColumnarEvent → Option ColumnarTable
  | .beginWrite writer stripeRowCount =>
      if table.writers writer = none ∧ 1 ≤ stripeRowCount then
        some { table with writers := Function.update table.writers writer (some ⟨stripeRowCount, none⟩) }
      else none
  | .writeRow writer =>
      match table.writers writer with
      | some writeState =>
          let stripeId := (table.createStripe writeState).2.1.stripeId
          let (table', writeState', writtenRowNumber) := table.columnarWriteRow writeState
          some { table' with
            writers := Function.update table'.writers writer (some writeState')
            writtenRows := table'.writtenRows ++ [(writtenRowNumber, stripeId)] }
      | none => none
  | .flush writer =>
      match table.writers writer with
      | some writeState =>
          let (table', writeState') := table.flushPendingWrites writeState
          some { table' with writers := Function.update table'.writers writer (some writeState') }
      | none => none
  | .abortStripe stripeId =>
      some { table with
        stripes := table.stripes.map fun stripe =>
          if stripe.id = stripeId then { stripe with aborted := true } else stripe
        writers := fun writer =>
          match table.writers writer with
          | some writeState =>
              if (writeState.stripe.map (·.1.stripeId)) = some stripeId then none else some writeState
          | none => none }

/-- The stripe row count of a new writer is at most `bound`. -/
def ColumnarEvent.StripeRowCountAtMost (bound : Nat) : ColumnarEvent → Prop
  | .beginWrite _ stripeRowCount => stripeRowCount.toNat ≤ bound
  | _ => True

instance (bound : Nat) : DecidablePred (ColumnarEvent.StripeRowCountAtMost bound) := by
  intro event
  cases event <;> unfold ColumnarEvent.StripeRowCountAtMost <;> infer_instance

/-! ## The lookup -/

/-- What one step of the scan keeps: it ends in the stripe found so far or in the new
one if that is at most the row number, and never in a smaller first row number. -/
theorem lookupStep_spec (rowNumber : UInt64) (found : Option StripeMetadata)
    (stripe : StripeMetadata) :
    (lookupStep rowNumber found stripe = found ∨
      lookupStep rowNumber found stripe = some stripe ∧ stripe.firstRowNumber ≤ rowNumber) ∧
    (stripe.firstRowNumber ≤ rowNumber → ∃ next, lookupStep rowNumber found stripe = some next ∧
      stripe.firstRowNumber.toNat ≤ next.firstRowNumber.toNat) ∧
    ∀ earlier, found = some earlier → ∃ next, lookupStep rowNumber found stripe = some next ∧
      earlier.firstRowNumber.toNat ≤ next.firstRowNumber.toNat := by
  unfold lookupStep
  split_ifs with hle
  · cases found with
    | none => exact ⟨Or.inr ⟨rfl, hle⟩, fun _ => ⟨stripe, rfl, Nat.le_refl _⟩, by simp⟩
    | some earlier =>
        dsimp only
        split_ifs with hgt
        · rw [gt_iff_lt, UInt64.lt_iff_toNat_lt] at hgt
          exact ⟨Or.inr ⟨rfl, hle⟩, fun _ => ⟨stripe, rfl, Nat.le_refl _⟩,
            fun e he => ⟨stripe, rfl, by cases he; omega⟩⟩
        · rw [gt_iff_lt, UInt64.lt_iff_toNat_lt] at hgt
          exact ⟨Or.inl rfl, fun _ => ⟨earlier, rfl, by omega⟩,
            fun e he => ⟨earlier, rfl, by cases he; exact Nat.le_refl _⟩⟩
  · exact ⟨Or.inl rfl, fun h => absurd h hle, fun e he => ⟨e, he, Nat.le_refl _⟩⟩

/-- The scan from any stripe found so far ends in that stripe or in a later one at
most the row number, with the greatest first row number of all of them. -/
theorem lookupFold_spec (rowNumber : UInt64) :
    ∀ (stripes : List StripeMetadata) (found : Option StripeMetadata) (stripe : StripeMetadata),
      stripes.foldl (lookupStep rowNumber) found = some stripe →
      (found = some stripe ∨ stripe ∈ stripes ∧ stripe.firstRowNumber ≤ rowNumber) ∧
        (∀ other ∈ stripes, other.firstRowNumber ≤ rowNumber →
          other.firstRowNumber.toNat ≤ stripe.firstRowNumber.toNat) ∧
        ∀ earlier, found = some earlier → earlier.firstRowNumber.toNat ≤ stripe.firstRowNumber.toNat := by
  intro stripes
  induction stripes with
  | nil =>
      intro found stripe h
      simp only [List.foldl_nil] at h
      subst h
      exact ⟨Or.inl rfl, by simp, fun earlier h => by cases h; exact Nat.le_refl _⟩
  | cons head rest ih =>
      intro found stripe h
      rw [List.foldl_cons] at h
      obtain ⟨hfrom, hgreatest, hlater⟩ := ih _ stripe h
      obtain ⟨hnextFrom, hnextHead, hnextFound⟩ := lookupStep_spec rowNumber found head
      refine ⟨?_, ?_, ?_⟩
      · rcases hfrom with hsame | hmem
        · rcases hnextFrom with hfound | ⟨hhead, hle⟩
          · exact Or.inl (hfound ▸ hsame)
          · rw [hsame] at hhead
            cases hhead
            exact Or.inr ⟨List.mem_cons_self, hle⟩
        · exact Or.inr ⟨List.mem_cons_of_mem _ hmem.1, hmem.2⟩
      · intro other hother hle
        rcases List.mem_cons.mp hother with rfl | hother
        · obtain ⟨next, hsome, hnextLe⟩ := hnextHead hle
          exact Nat.le_trans hnextLe (hlater next hsome)
        · exact hgreatest other hother hle
      · intro earlier hearlier
        obtain ⟨next, hsome, hnextLe⟩ := hnextFound earlier hearlier
        exact Nat.le_trans hnextLe (hlater next hsome)

/-- The scan finds nothing only when no stripe starts at or below the row number. -/
theorem lookupFold_eq_none (rowNumber : UInt64) :
    ∀ (stripes : List StripeMetadata) (found : Option StripeMetadata),
      stripes.foldl (lookupStep rowNumber) found = none →
      found = none ∧ ∀ stripe ∈ stripes, ¬ stripe.firstRowNumber ≤ rowNumber := by
  intro stripes
  induction stripes with
  | nil =>
      intro found h
      exact ⟨h, by simp⟩
  | cons head rest ih =>
      intro found h
      rw [List.foldl_cons] at h
      obtain ⟨hnext, hrest⟩ := ih _ h
      obtain ⟨-, hnextHead, hnextFound⟩ := lookupStep_spec rowNumber found head
      refine ⟨?_, ?_⟩
      · cases found with
        | none => rfl
        | some earlier =>
            obtain ⟨next, hsome, -⟩ := hnextFound earlier rfl
            rw [hnext] at hsome
            cases hsome
      · intro stripe hstripe hle
        rcases List.mem_cons.mp hstripe with rfl | hstripe
        · obtain ⟨next, hsome, -⟩ := hnextHead hle
          rw [hnext] at hsome
          cases hsome
        · exact hrest stripe hstripe hle

/-- `StripeMetadataLookupRowNumber` finds a stripe at most the row number, with the
greatest first row number among them, or none if there is none. -/
theorem stripeMetadataLookupRowNumber_spec (stripes : List StripeMetadata) (rowNumber : UInt64) :
    (∀ stripe, stripeMetadataLookupRowNumber stripes rowNumber = some stripe →
      stripe ∈ stripes ∧ stripe.firstRowNumber ≤ rowNumber ∧
        ∀ other ∈ stripes, other.firstRowNumber ≤ rowNumber →
          other.firstRowNumber.toNat ≤ stripe.firstRowNumber.toNat) ∧
    (stripeMetadataLookupRowNumber stripes rowNumber = none →
      ∀ stripe ∈ stripes, ¬ stripe.firstRowNumber ≤ rowNumber) := by
  constructor
  · intro stripe h
    obtain ⟨hfrom, hgreatest, -⟩ := lookupFold_spec rowNumber stripes none stripe h
    rcases hfrom with hnone | hmem
    · cases hnone
    · exact ⟨hmem.1, hmem.2, hgreatest⟩
  · intro h
    exact (lookupFold_eq_none rowNumber stripes none h).2

/-- The highest row number of a stripe whose range fits in 64 bits and starts at `1` or
above. -/
theorem stripeGetHighestRowNumber_toNat (stripe : StripeMetadata)
    (hfits : stripe.firstRowNumber.toNat + stripe.rowCount.toNat < 2 ^ 64)
    (hfirst : 1 ≤ stripe.firstRowNumber.toNat) :
    (stripeGetHighestRowNumber stripe).toNat = stripe.firstRowNumber.toNat + stripe.rowCount.toNat - 1 := by
  have hsum : (stripe.firstRowNumber + stripe.rowCount).toNat =
      stripe.firstRowNumber.toNat + stripe.rowCount.toNat := by
    rw [UInt64.toNat_add]
    exact Nat.mod_eq_of_lt hfits
  unfold stripeGetHighestRowNumber
  rw [UInt64.toNat_sub_of_le _ _ (by rw [UInt64.le_iff_toNat_le, hsum]; simp; omega), hsum]
  simp

/-- `FindStripeByRowNumber` is the lookup, kept when the row is at most the stripe's
highest row number. -/
theorem findStripeByRowNumber_eq_some {stripes : List StripeMetadata} {rowNumber : UInt64}
    {stripe : StripeMetadata} :
    findStripeByRowNumber stripes rowNumber = some stripe ↔
      stripeMetadataLookupRowNumber stripes rowNumber = some stripe ∧
        rowNumber.toNat ≤ (stripeGetHighestRowNumber stripe).toNat := by
  unfold findStripeByRowNumber
  cases stripeMetadataLookupRowNumber stripes rowNumber with
  | none => simp
  | some found =>
      dsimp only
      constructor
      · intro h
        split_ifs at h with hgt
        cases h
        rw [gt_iff_lt, UInt64.lt_iff_toNat_lt] at hgt
        exact ⟨rfl, Nat.le_of_not_lt hgt⟩
      · rintro ⟨hfound, hle⟩
        cases hfound
        have hgt : ¬ rowNumber > stripeGetHighestRowNumber stripe := by
          rw [gt_iff_lt, UInt64.lt_iff_toNat_lt]
          exact Nat.not_lt_of_le hle
        rw [if_neg hgt]

/-! ## The layout of the stripes -/

/-- The stripes' ids and reserved row ranges: both increase along the list, the ranges
do not overlap and start at `1`, and both lie below the metapage's counters. -/
structure StripeLayout (reservedStripeId reservedRowNumber : Nat) (stripes : List StripeMetadata) :
    Prop where
  ids_lt : stripes.Pairwise fun stripe later => stripe.id.toNat < later.id.toNat
  id_lt : ∀ stripe ∈ stripes, stripe.id.toNat < reservedStripeId
  ranges_disjoint : stripes.Pairwise fun stripe later =>
    stripe.firstRowNumber.toNat + stripe.reservedRowCount.toNat ≤ later.firstRowNumber.toNat
  range_le : ∀ stripe ∈ stripes, 1 ≤ stripe.firstRowNumber.toNat ∧ 1 ≤ stripe.reservedRowCount.toNat ∧
    stripe.firstRowNumber.toNat + stripe.reservedRowCount.toNat ≤ reservedRowNumber

namespace StripeLayout

variable {reservedStripeId reservedRowNumber : Nat} {stripes : List StripeMetadata}

theorem empty : StripeLayout 1 1 [] := ⟨List.Pairwise.nil, by simp, List.Pairwise.nil, by simp⟩

/-- Changing what a stripe records besides its id and range keeps the layout. -/
theorem map (layout : StripeLayout reservedStripeId reservedRowNumber stripes)
    (update : StripeMetadata → StripeMetadata) (hid : ∀ stripe, (update stripe).id = stripe.id)
    (hfirst : ∀ stripe, (update stripe).firstRowNumber = stripe.firstRowNumber)
    (hreserved : ∀ stripe, (update stripe).reservedRowCount = stripe.reservedRowCount) :
    StripeLayout reservedStripeId reservedRowNumber (stripes.map update) where
  ids_lt := List.pairwise_map.mpr (layout.ids_lt.imp fun h => by rw [hid, hid]; exact h)
  id_lt stripe hstripe := by
    obtain ⟨original, horiginal, rfl⟩ := List.mem_map.mp hstripe
    rw [hid]
    exact layout.id_lt original horiginal
  ranges_disjoint := List.pairwise_map.mpr (layout.ranges_disjoint.imp fun h => by
    rw [hfirst, hfirst, hreserved]; exact h)
  range_le stripe hstripe := by
    obtain ⟨original, horiginal, rfl⟩ := List.mem_map.mp hstripe
    rw [hfirst, hreserved]
    exact layout.range_le original horiginal

/-- A stripe reserved at the counters extends the layout. -/
theorem reserve (layout : StripeLayout reservedStripeId reservedRowNumber stripes)
    {stripe : StripeMetadata} (hid : stripe.id.toNat = reservedStripeId)
    (hfirst : stripe.firstRowNumber.toNat = reservedRowNumber) (hone : 1 ≤ reservedRowNumber)
    (hreserved : 1 ≤ stripe.reservedRowCount.toNat) :
    StripeLayout (reservedStripeId + 1) (reservedRowNumber + stripe.reservedRowCount.toNat)
      (stripes ++ [stripe]) where
  ids_lt := List.pairwise_append.mpr ⟨layout.ids_lt, List.pairwise_singleton _ _,
    fun earlier hearlier later hlater => by
      rw [List.mem_singleton.mp hlater, hid]
      exact layout.id_lt earlier hearlier⟩
  id_lt earlier hearlier := by
    rcases List.mem_append.mp hearlier with hearlier | hnew
    · exact Nat.lt_succ_of_lt (layout.id_lt earlier hearlier)
    · rw [List.mem_singleton.mp hnew, hid]
      exact Nat.lt_succ_self _
  ranges_disjoint := List.pairwise_append.mpr ⟨layout.ranges_disjoint, List.pairwise_singleton _ _,
    fun earlier hearlier later hlater => by
      rw [List.mem_singleton.mp hlater, hfirst]
      exact (layout.range_le earlier hearlier).2.2⟩
  range_le earlier hearlier := by
    rcases List.mem_append.mp hearlier with hearlier | hnew
    · obtain ⟨h1, h2, h3⟩ := layout.range_le earlier hearlier
      exact ⟨h1, h2, by omega⟩
    · rw [List.mem_singleton.mp hnew]
      omega

/-- Two stripes with one id are one stripe. -/
theorem eq_of_id_eq (layout : StripeLayout reservedStripeId reservedRowNumber stripes)
    {stripe other : StripeMetadata} (hstripe : stripe ∈ stripes) (hother : other ∈ stripes)
    (hid : stripe.id = other.id) : stripe = other := by
  by_contra hne
  have : Std.Symm fun stripe later : StripeMetadata =>
      stripe.id.toNat < later.id.toNat ∨ later.id.toNat < stripe.id.toNat := ⟨fun _ _ h => h.symm⟩
  have hsymmetric : (stripes.Pairwise fun stripe later =>
      stripe.id.toNat < later.id.toNat ∨ later.id.toNat < stripe.id.toNat) :=
    layout.ids_lt.imp Or.inl
  rcases hsymmetric.forall hstripe hother hne with h | h <;>
    rw [hid] at h <;> exact Nat.lt_irrefl _ h

/-- Two different stripes have disjoint ranges, one below the other. -/
theorem ranges_disjoint_of_ne (layout : StripeLayout reservedStripeId reservedRowNumber stripes)
    {stripe other : StripeMetadata} (hstripe : stripe ∈ stripes) (hother : other ∈ stripes)
    (hne : stripe ≠ other) :
    stripe.firstRowNumber.toNat + stripe.reservedRowCount.toNat ≤ other.firstRowNumber.toNat ∨
      other.firstRowNumber.toNat + other.reservedRowCount.toNat ≤ stripe.firstRowNumber.toNat := by
  have : Std.Symm fun stripe later : StripeMetadata =>
      stripe.firstRowNumber.toNat + stripe.reservedRowCount.toNat ≤ later.firstRowNumber.toNat ∨
        later.firstRowNumber.toNat + later.reservedRowCount.toNat ≤ stripe.firstRowNumber.toNat :=
    ⟨fun _ _ h => h.symm⟩
  have hsymmetric : (stripes.Pairwise fun stripe later =>
      stripe.firstRowNumber.toNat + stripe.reservedRowCount.toNat ≤ later.firstRowNumber.toNat ∨
        later.firstRowNumber.toNat + later.reservedRowCount.toNat ≤ stripe.firstRowNumber.toNat) :=
    layout.ranges_disjoint.imp Or.inl
  exact hsymmetric.forall hstripe hother hne

/-- A row inside the ranges of two stripes is inside one stripe. -/
theorem eq_of_mem_range (layout : StripeLayout reservedStripeId reservedRowNumber stripes)
    {stripe other : StripeMetadata} (hstripe : stripe ∈ stripes) (hother : other ∈ stripes)
    {rowNumber : Nat}
    (hinside : stripe.firstRowNumber.toNat ≤ rowNumber ∧
      rowNumber < stripe.firstRowNumber.toNat + stripe.reservedRowCount.toNat)
    (hotherInside : other.firstRowNumber.toNat ≤ rowNumber ∧
      rowNumber < other.firstRowNumber.toNat + other.reservedRowCount.toNat) :
    stripe = other := by
  by_contra hne
  rcases layout.ranges_disjoint_of_ne hstripe hother hne with h | h <;> omega

/-- A stripe that starts at or below a row inside another stripe's range starts at or
below that stripe. -/
theorem firstRowNumber_le_of_mem_range (layout : StripeLayout reservedStripeId reservedRowNumber stripes)
    {stripe other : StripeMetadata} (hstripe : stripe ∈ stripes) (hother : other ∈ stripes)
    {rowNumber : Nat} (hinside : rowNumber < stripe.firstRowNumber.toNat + stripe.reservedRowCount.toNat)
    (hotherLe : other.firstRowNumber.toNat ≤ rowNumber) :
    other.firstRowNumber.toNat ≤ stripe.firstRowNumber.toNat := by
  by_cases hsame : stripe = other
  · subst hsame
    exact Nat.le_refl _
  have hreserved := (layout.range_le other hother).2.1
  rcases layout.ranges_disjoint_of_ne hstripe hother hsame with h | h <;> omega

end StripeLayout

/-! ## The phases of a step -/

namespace ColumnarTable

/-- The number of rows written to a stripe so far. -/
def writtenCount (table : ColumnarTable) (stripeId : UInt64) : Nat :=
  table.writtenRows.countP fun row => row.2 == stripeId

/-- A writer's row numbered by `ColumnarWriteRow`: its buffers hold one more row, and the
row number is recorded with the writer's stripe. -/
def recordRow (table : ColumnarTable) (writer : Nat) (writeState : ColumnarWriteState)
    (reservation : EmptyStripeReservation) (rowCount : UInt32) : ColumnarTable :=
  { table with
    writers := Function.update table.writers writer
      (some { writeState with stripe := some (reservation, rowCount + 1) })
    writtenRows := table.writtenRows ++
      [(reservation.stripeFirstRowNumber + rowCount.toUInt64, reservation.stripeId)] }

/-- `ColumnarFlushPendingWrites` for one writer of the table. -/
def flushWriter (table : ColumnarTable) (writer : Nat) (writeState : ColumnarWriteState) :
    ColumnarTable :=
  let (table, writeState) := table.flushPendingWrites writeState
  { table with writers := Function.update table.writers writer (some writeState) }

/-- What a written row makes of the table: the row recorded and the stripe flushed when
it is full. -/
def writeRowResult (table : ColumnarTable) (writer : Nat) (writeState : ColumnarWriteState) :
    ColumnarTable :=
  let (table, reservation, rowCount) := table.createStripe writeState
  let recorded := table.recordRow writer writeState reservation rowCount
  if writeState.stripeRowCount ≤ (rowCount + 1).toUInt64 then
    recorded.flushWriter writer { writeState with stripe := some (reservation, rowCount + 1) }
  else recorded

@[simp] theorem writtenCount_append (table : ColumnarTable) (rowNumber stripeId other : UInt64) :
    { table with writtenRows := table.writtenRows ++ [(rowNumber, stripeId)] }.writtenCount other =
      table.writtenCount other + if stripeId = other then 1 else 0 := by
  simp [writtenCount, List.countP_append]

@[simp] theorem recordRow_stripes (table : ColumnarTable) (writer : Nat)
    (writeState : ColumnarWriteState) (reservation : EmptyStripeReservation) (rowCount : UInt32) :
    (table.recordRow writer writeState reservation rowCount).stripes = table.stripes := rfl

@[simp] theorem recordRow_writers (table : ColumnarTable) (writer : Nat)
    (writeState : ColumnarWriteState) (reservation : EmptyStripeReservation) (rowCount : UInt32) :
    (table.recordRow writer writeState reservation rowCount).writers =
      Function.update table.writers writer
        (some { writeState with stripe := some (reservation, rowCount + 1) }) := rfl

@[simp] theorem recordRow_writtenCount (table : ColumnarTable) (writer : Nat)
    (writeState : ColumnarWriteState) (reservation : EmptyStripeReservation) (rowCount : UInt32)
    (stripeId : UInt64) :
    (table.recordRow writer writeState reservation rowCount).writtenCount stripeId =
      table.writtenCount stripeId + if reservation.stripeId = stripeId then 1 else 0 :=
  writtenCount_append table _ _ stripeId

theorem writtenCount_eq_zero {table : ColumnarTable} {stripeId : UInt64}
    (hfresh : ∀ row ∈ table.writtenRows, row.2 ≠ stripeId) : table.writtenCount stripeId = 0 := by
  unfold writtenCount
  rw [List.countP_eq_zero]
  intro row hrow
  simpa using hfresh row hrow

@[simp] theorem reserveEmptyStripe_eq (table : ColumnarTable) (stripeRowCount : UInt64) :
    table.reserveEmptyStripe stripeRowCount =
      ({ table with
          reservedStripeId := table.reservedStripeId + 1
          reservedRowNumber := table.reservedRowNumber + stripeRowCount
          stripes := table.stripes ++
            [⟨table.reservedStripeId, table.reservedRowNumber, 0, false, stripeRowCount⟩] },
        ⟨table.reservedStripeId, table.reservedRowNumber⟩) := rfl

theorem flushWriter_of_stripe (table : ColumnarTable) (writer : Nat) {writeState : ColumnarWriteState}
    {reservation : EmptyStripeReservation} {rowCount : UInt32}
    (hstripe : writeState.stripe = some (reservation, rowCount)) :
    table.flushWriter writer writeState =
      { table.completeStripeReservation reservation.stripeId rowCount.toUInt64 with
        writers := Function.update table.writers writer (some { writeState with stripe := none }) } := by
  simp [flushWriter, flushPendingWrites, hstripe, completeStripeReservation]

theorem flushWriter_of_none {table : ColumnarTable} {writer : Nat} {writeState : ColumnarWriteState}
    (hwriter : table.writers writer = some writeState) (hnone : writeState.stripe = none) :
    table.flushWriter writer writeState = table := by
  simp only [flushWriter, flushPendingWrites, hnone]
  rw [← hwriter, Function.update_eq_self]

theorem writeRowResult_of_stripe (table : ColumnarTable) (writer : Nat) {writeState : ColumnarWriteState}
    {reservation : EmptyStripeReservation} {rowCount : UInt32}
    (hstripe : writeState.stripe = some (reservation, rowCount)) :
    table.writeRowResult writer writeState =
      if writeState.stripeRowCount ≤ (rowCount + 1).toUInt64 then
        (table.recordRow writer writeState reservation rowCount).flushWriter writer
          { writeState with stripe := some (reservation, rowCount + 1) }
      else table.recordRow writer writeState reservation rowCount := by
  simp [writeRowResult, createStripe, hstripe]

/-- A writer without stripe buffers writes its row as if it had just taken the stripe
`ReserveEmptyStripe` reserves for it. -/
theorem writeRowResult_of_none (table : ColumnarTable) (writer : Nat) {writeState : ColumnarWriteState}
    (hnone : writeState.stripe = none) :
    table.writeRowResult writer writeState =
      let reserved := { (table.reserveEmptyStripe writeState.stripeRowCount).1 with
        writers := Function.update table.writers writer
          (some { writeState with stripe := some ((table.reserveEmptyStripe writeState.stripeRowCount).2, 0) }) }
      reserved.writeRowResult writer
        { writeState with stripe := some ((table.reserveEmptyStripe writeState.stripeRowCount).2, 0) } := by
  simp [writeRowResult, createStripe, hnone, recordRow, Function.update_idem]

end ColumnarTable

/-- A written row is `writeRowResult`. -/
theorem columnarStep_writeRow {table table' : ColumnarTable} {writer : Nat}
    (h : columnarStep table (.writeRow writer) = some table') :
    ∃ writeState, table.writers writer = some writeState ∧
      table' = table.writeRowResult writer writeState := by
  simp only [columnarStep] at h
  split at h
  · rename_i writeState hwriter
    refine ⟨writeState, hwriter, ?_⟩
    rw [← Option.some.inj h]
    rcases hcreate : table.createStripe writeState with ⟨table₁, reservation, rowCount⟩
    simp only [ColumnarTable.writeRowResult, ColumnarTable.columnarWriteRow, hcreate, ge_iff_le]
    split_ifs with hfull
    · simp [ColumnarTable.flushWriter, ColumnarTable.flushPendingWrites, ColumnarTable.recordRow,
        ColumnarTable.completeStripeReservation, Function.update_idem]
    · rfl
  · cases h

theorem columnarStep_beginWrite {table table' : ColumnarTable} {writer : Nat}
    {stripeRowCount : UInt64} (h : columnarStep table (.beginWrite writer stripeRowCount) = some table') :
    table.writers writer = none ∧ 1 ≤ stripeRowCount ∧
      table' = { table with
        writers := Function.update table.writers writer (some ⟨stripeRowCount, none⟩) } := by
  simp only [columnarStep] at h
  split_ifs at h with hguard
  exact ⟨hguard.1, hguard.2, (Option.some.inj h).symm⟩

theorem columnarStep_flush {table table' : ColumnarTable} {writer : Nat}
    (h : columnarStep table (.flush writer) = some table') :
    ∃ writeState, table.writers writer = some writeState ∧
      table' = table.flushWriter writer writeState := by
  simp only [columnarStep] at h
  split at h
  · rename_i writeState hwriter
    exact ⟨writeState, hwriter, (Option.some.inj h).symm⟩
  · cases h

/-- The stripe a writer's buffers belong to. -/
def ColumnarWriteState.stripeId (writeState : ColumnarWriteState) : Option UInt64 :=
  writeState.stripe.map (·.1.stripeId)

theorem columnarStep_abortStripe {table table' : ColumnarTable} {stripeId : UInt64}
    (h : columnarStep table (.abortStripe stripeId) = some table') :
    table' = { table with
      stripes := table.stripes.map fun stripe =>
        if stripe.id = stripeId then { stripe with aborted := true } else stripe
      writers := fun writer =>
        match table.writers writer with
        | some writeState => if writeState.stripeId = some stripeId then none else some writeState
        | none => none } :=
  (Option.some.inj h).symm

/-! ## The rows and the stripes -/

/-- What the stripes and the written rows keep: the layout of the reservations, below
counters that stay under `bound`, and for every stripe, the rows written to it are the
first `writtenCount` numbers of its range; its row count is `0` until it is flushed and
then the number of those rows. -/
structure RowsInvariant (bound : Nat) (table : ColumnarTable) : Prop where
  layout : StripeLayout table.reservedStripeId.toNat table.reservedRowNumber.toNat table.stripes
  one_le_reservedStripeId : 1 ≤ table.reservedStripeId.toNat
  reservedStripeId_le : table.reservedStripeId.toNat ≤ table.reservedRowNumber.toNat
  reservedRowNumber_le : table.reservedRowNumber.toNat ≤ bound
  written_stripe : ∀ row ∈ table.writtenRows, ∃ stripe ∈ table.stripes, stripe.id = row.2
  written_iff : ∀ stripe ∈ table.stripes, ∀ rowNumber : UInt64,
    (rowNumber, stripe.id) ∈ table.writtenRows ↔
      stripe.firstRowNumber.toNat ≤ rowNumber.toNat ∧
        rowNumber.toNat < stripe.firstRowNumber.toNat + table.writtenCount stripe.id
  writtenCount_le : ∀ stripe ∈ table.stripes,
    table.writtenCount stripe.id ≤ stripe.reservedRowCount.toNat
  rowCount_eq : ∀ stripe ∈ table.stripes,
    stripe.rowCount.toNat = 0 ∨ stripe.rowCount.toNat = table.writtenCount stripe.id
  written_nodup : (table.writtenRows.map (·.1)).Nodup

namespace RowsInvariant

variable {bound : Nat} {table : ColumnarTable}

theorem empty : RowsInvariant 1 ColumnarTable.empty where
  layout := StripeLayout.empty
  one_le_reservedStripeId := by decide
  reservedStripeId_le := by decide
  reservedRowNumber_le := by decide
  written_stripe := by simp [ColumnarTable.empty]
  written_iff := by simp [ColumnarTable.empty]
  writtenCount_le := by simp [ColumnarTable.empty]
  rowCount_eq := by simp [ColumnarTable.empty]
  written_nodup := List.nodup_nil

theorem mono (rows : RowsInvariant bound table) {bound' : Nat} (hle : bound ≤ bound') :
    RowsInvariant bound' table :=
  { rows with reservedRowNumber_le := Nat.le_trans rows.reservedRowNumber_le hle }

/-- No written row names a stripe id not reserved yet. -/
theorem written_ne_reservedStripeId (rows : RowsInvariant bound table) :
    ∀ row ∈ table.writtenRows, row.2 ≠ table.reservedStripeId := by
  intro row hrow hid
  obtain ⟨stripe, hstripe, hstripeId⟩ := rows.written_stripe row hrow
  have hlt := rows.layout.id_lt stripe hstripe
  rw [hstripeId, hid] at hlt
  exact Nat.lt_irrefl _ hlt

/-- Changing what each stripe records besides its id and range keeps the invariant, when
each row count stays `0` or the number of the stripe's rows. -/
theorem mapStripes (rows : RowsInvariant bound table) (update : StripeMetadata → StripeMetadata)
    (hid : ∀ stripe, (update stripe).id = stripe.id)
    (hfirst : ∀ stripe, (update stripe).firstRowNumber = stripe.firstRowNumber)
    (hreserved : ∀ stripe, (update stripe).reservedRowCount = stripe.reservedRowCount)
    (hrowCount : ∀ stripe ∈ table.stripes, (update stripe).rowCount.toNat = 0 ∨
      (update stripe).rowCount.toNat = table.writtenCount stripe.id) :
    RowsInvariant bound { table with stripes := table.stripes.map update } where
  layout := rows.layout.map update hid hfirst hreserved
  one_le_reservedStripeId := rows.one_le_reservedStripeId
  reservedStripeId_le := rows.reservedStripeId_le
  reservedRowNumber_le := rows.reservedRowNumber_le
  written_stripe row hrow := by
    obtain ⟨stripe, hstripe, hstripeId⟩ := rows.written_stripe row hrow
    exact ⟨update stripe, List.mem_map_of_mem hstripe, by rw [hid, hstripeId]⟩
  written_iff stripe hstripe rowNumber := by
    obtain ⟨original, horiginal, rfl⟩ := List.mem_map.mp hstripe
    rw [hid, hfirst]
    exact rows.written_iff original horiginal rowNumber
  writtenCount_le stripe hstripe := by
    obtain ⟨original, horiginal, rfl⟩ := List.mem_map.mp hstripe
    rw [hid, hreserved]
    exact rows.writtenCount_le original horiginal
  rowCount_eq stripe hstripe := by
    obtain ⟨original, horiginal, rfl⟩ := List.mem_map.mp hstripe
    rw [hid]
    exact hrowCount original horiginal
  written_nodup := rows.written_nodup

/-- `CompleteStripeReservation` with the number of rows written to the stripe keeps the
invariant. -/
theorem completeStripeReservation (rows : RowsInvariant bound table) {stripeId rowCount : UInt64}
    (hcount : rowCount.toNat = table.writtenCount stripeId) :
    RowsInvariant bound (table.completeStripeReservation stripeId rowCount) := by
  apply rows.mapStripes
  · intro stripe
    split <;> rfl
  · intro stripe
    split <;> rfl
  · intro stripe
    split <;> rfl
  · intro stripe hstripe
    split
    · rename_i hid
      right
      rw [hid]
      exact hcount
    · exact rows.rowCount_eq stripe hstripe

/-- Marking a stripe aborted keeps the invariant. -/
theorem abortStripe (rows : RowsInvariant bound table) (stripeId : UInt64) :
    RowsInvariant bound { table with
      stripes := table.stripes.map fun stripe =>
        if stripe.id = stripeId then { stripe with aborted := true } else stripe } := by
  apply rows.mapStripes
  · intro stripe
    split <;> rfl
  · intro stripe
    split <;> rfl
  · intro stripe
    split <;> rfl
  · intro stripe hstripe
    split
    · exact rows.rowCount_eq stripe hstripe
    · exact rows.rowCount_eq stripe hstripe

/-- A row numbered at the next place of a stripe that is not flushed and has room left
keeps the invariant. -/
theorem appendRow (rows : RowsInvariant bound table) {stripe : StripeMetadata}
    (hstripe : stripe ∈ table.stripes) (hzero : stripe.rowCount = 0)
    (hroom : table.writtenCount stripe.id < stripe.reservedRowCount.toNat) {rowNumber : UInt64}
    (hrow : rowNumber.toNat = stripe.firstRowNumber.toNat + table.writtenCount stripe.id) :
    RowsInvariant bound { table with writtenRows := table.writtenRows ++ [(rowNumber, stripe.id)] } where
  layout := rows.layout
  one_le_reservedStripeId := rows.one_le_reservedStripeId
  reservedStripeId_le := rows.reservedStripeId_le
  reservedRowNumber_le := rows.reservedRowNumber_le
  written_stripe row hrowMem := by
    rcases List.mem_append.mp hrowMem with hold | hnew
    · exact rows.written_stripe row hold
    · rw [List.mem_singleton.mp hnew]
      exact ⟨stripe, hstripe, rfl⟩
  written_iff other hother written := by
    rw [ColumnarTable.writtenCount_append, List.mem_append, List.mem_singleton,
      rows.written_iff other hother written]
    by_cases hsame : stripe.id = other.id
    · -- the row goes to this stripe: its range grows by the new row
      obtain rfl := rows.layout.eq_of_id_eq hstripe hother hsame
      simp only [↓reduceIte, Prod.mk.injEq, and_true, ← UInt64.toNat_inj]
      constructor <;> intro h <;> omega
    · have hother' : other.id ≠ stripe.id := fun h => hsame h.symm
      simp [hsame, hother']
  writtenCount_le other hother := by
    rw [ColumnarTable.writtenCount_append]
    by_cases hsame : stripe.id = other.id
    · obtain rfl := rows.layout.eq_of_id_eq hstripe hother hsame
      rw [if_pos rfl]
      exact hroom
    · rw [if_neg hsame, Nat.add_zero]
      exact rows.writtenCount_le other hother
  rowCount_eq other hother := by
    rw [ColumnarTable.writtenCount_append]
    by_cases hsame : stripe.id = other.id
    · obtain rfl := rows.layout.eq_of_id_eq hstripe hother hsame
      left
      rw [hzero]
      rfl
    · rw [if_neg hsame, Nat.add_zero]
      exact rows.rowCount_eq other hother
  written_nodup := by
    -- the new number lies in this stripe's range past its rows, where no row was written
    have hfresh : rowNumber ∉ table.writtenRows.map (·.1) := by
      intro hmem
      obtain ⟨⟨written, stripeId⟩, hwritten, hnumber⟩ := List.mem_map.mp hmem
      obtain ⟨other, hother, hid⟩ := rows.written_stripe _ hwritten
      dsimp only at hnumber hid
      subst hnumber hid
      have hinside := (rows.written_iff other hother written).mp hwritten
      have hotherRoom := rows.writtenCount_le other hother
      have hstripeRange : stripe.firstRowNumber.toNat ≤ written.toNat ∧
          written.toNat < stripe.firstRowNumber.toNat + stripe.reservedRowCount.toNat := by omega
      have hotherRange : other.firstRowNumber.toNat ≤ written.toNat ∧
          written.toNat < other.firstRowNumber.toNat + other.reservedRowCount.toNat := by omega
      obtain rfl := rows.layout.eq_of_mem_range hstripe hother hstripeRange hotherRange
      omega
    rw [List.map_append]
    exact rows.written_nodup.append (List.nodup_singleton _) (List.disjoint_singleton.mpr hfresh)

/-- `ReserveEmptyStripe` for at least one row keeps the invariant, under a bound grown by
the reserved rows. -/
theorem reserveEmptyStripe (rows : RowsInvariant bound table) {stripeRowCount : UInt64}
    (hone : 1 ≤ stripeRowCount.toNat) {bound' : Nat}
    (hbound : bound + stripeRowCount.toNat ≤ bound') (hfits : bound' < 2 ^ 64) :
    RowsInvariant bound' (table.reserveEmptyStripe stripeRowCount).1 := by
  have hstripeId : (table.reservedStripeId + 1).toNat = table.reservedStripeId.toNat + 1 := by
    have := rows.reservedStripeId_le
    have := rows.reservedRowNumber_le
    rw [UInt64.toNat_add, UInt64.toNat_one]
    omega
  have hrowNumber : (table.reservedRowNumber + stripeRowCount).toNat =
      table.reservedRowNumber.toNat + stripeRowCount.toNat := by
    have := rows.reservedRowNumber_le
    rw [UInt64.toNat_add]
    omega
  have hfresh := rows.written_ne_reservedStripeId
  rw [ColumnarTable.reserveEmptyStripe_eq]
  dsimp only
  constructor
  case layout =>
    rw [hstripeId, hrowNumber]
    exact @StripeLayout.reserve _ _ _ rows.layout
      ⟨table.reservedStripeId, table.reservedRowNumber, 0, false, stripeRowCount⟩ rfl rfl
      (Nat.le_trans rows.one_le_reservedStripeId rows.reservedStripeId_le) hone
  case one_le_reservedStripeId =>
    rw [hstripeId]
    exact Nat.le_add_left 1 _
  case reservedStripeId_le =>
    rw [hstripeId, hrowNumber]
    exact Nat.add_le_add rows.reservedStripeId_le hone
  case reservedRowNumber_le =>
    rw [hrowNumber]
    exact Nat.le_trans (Nat.add_le_add_right rows.reservedRowNumber_le _) hbound
  case written_stripe =>
    intro row hrow
    obtain ⟨stripe, hstripe, hid⟩ := rows.written_stripe row hrow
    exact ⟨stripe, List.mem_append_left _ hstripe, hid⟩
  case written_iff =>
    intro stripe hstripe rowNumber
    rcases List.mem_append.mp hstripe with hold | hnew
    · exact rows.written_iff stripe hold rowNumber
    · -- the new stripe has no rows yet
      rw [List.mem_singleton.mp hnew]
      dsimp only
      constructor
      · intro hwritten
        exact absurd rfl (hfresh _ hwritten)
      · rintro ⟨hle, hlt⟩
        have hlt : rowNumber.toNat <
            table.reservedRowNumber.toNat + table.writtenCount table.reservedStripeId := hlt
        rw [ColumnarTable.writtenCount_eq_zero hfresh] at hlt
        omega
  case writtenCount_le =>
    intro stripe hstripe
    rcases List.mem_append.mp hstripe with hold | hnew
    · exact rows.writtenCount_le stripe hold
    · rw [List.mem_singleton.mp hnew]
      show table.writtenCount table.reservedStripeId ≤ stripeRowCount.toNat
      rw [ColumnarTable.writtenCount_eq_zero hfresh]
      exact Nat.zero_le _
  case rowCount_eq =>
    intro stripe hstripe
    rcases List.mem_append.mp hstripe with hold | hnew
    · exact rows.rowCount_eq stripe hold
    · rw [List.mem_singleton.mp hnew]
      exact Or.inl rfl
  case written_nodup => exact rows.written_nodup

/-- A stripe's range ends at or below the row-number counter, so its highest row number
is computed without wrapping. -/
theorem stripeGetHighestRowNumber_toNat (rows : RowsInvariant bound table) {stripe : StripeMetadata}
    (hstripe : stripe ∈ table.stripes) :
    (stripeGetHighestRowNumber stripe).toNat = stripe.firstRowNumber.toNat + stripe.rowCount.toNat - 1 := by
  have hrange := rows.layout.range_le stripe hstripe
  have hcount := rows.writtenCount_le stripe hstripe
  have hrowCount := rows.rowCount_eq stripe hstripe
  have hcounter := UInt64.toNat_lt table.reservedRowNumber
  apply Citus.Columnar.stripeGetHighestRowNumber_toNat stripe _ hrange.1
  rcases hrowCount with h | h <;> omega

/-- A row written to a flushed stripe that the snapshot sees is found in that stripe. -/
theorem findStripeByRowNumber_of_written (rows : RowsInvariant bound table)
    {rowNumber : UInt64} {stripe : StripeMetadata}
    (hwritten : (rowNumber, stripe.id) ∈ table.writtenRows) (hvisible : stripe ∈ table.visibleStripes)
    (hflushed : 0 < stripe.rowCount.toNat) :
    findStripeByRowNumber table.visibleStripes rowNumber = some stripe := by
  have hstripe : stripe ∈ table.stripes := (List.mem_filter.mp hvisible).1
  have hinside := (rows.written_iff stripe hstripe rowNumber).mp hwritten
  have hcount : stripe.rowCount.toNat = table.writtenCount stripe.id :=
    (rows.rowCount_eq stripe hstripe).resolve_left (Nat.pos_iff_ne_zero.mp hflushed)
  have hreserved := rows.writtenCount_le stripe hstripe
  have hstripeLe : stripe.firstRowNumber ≤ rowNumber := UInt64.le_iff_toNat_le.mpr hinside.1
  -- the scan finds some stripe, since this one starts at or below the row
  obtain ⟨found, hfound⟩ : ∃ found,
      stripeMetadataLookupRowNumber table.visibleStripes rowNumber = some found := by
    cases hlookup : stripeMetadataLookupRowNumber table.visibleStripes rowNumber with
    | none =>
        exact absurd hstripeLe ((stripeMetadataLookupRowNumber_spec _ _).2 hlookup stripe hvisible)
    | some found => exact ⟨found, rfl⟩
  obtain ⟨hfoundVisible, hfoundLe, hgreatest⟩ :=
    (stripeMetadataLookupRowNumber_spec _ _).1 found hfound
  have hfoundStripe : found ∈ table.stripes := (List.mem_filter.mp hfoundVisible).1
  -- it starts no lower than this stripe, and no higher since the row is in this stripe's range
  have hlower := hgreatest stripe hvisible hstripeLe
  have hupper := rows.layout.firstRowNumber_le_of_mem_range hstripe hfoundStripe
    (Nat.lt_of_lt_of_le hinside.2 (Nat.add_le_add_left hreserved _))
    (UInt64.le_iff_toNat_le.mp hfoundLe)
  have hfoundReserved := (rows.layout.range_le found hfoundStripe).2.1
  have hstripeReserved := (rows.layout.range_le stripe hstripe).2.1
  have hfoundRange : found.firstRowNumber.toNat ≤ stripe.firstRowNumber.toNat ∧
      stripe.firstRowNumber.toNat < found.firstRowNumber.toNat + found.reservedRowCount.toNat := by
    omega
  have hstripeRange : stripe.firstRowNumber.toNat ≤ stripe.firstRowNumber.toNat ∧
      stripe.firstRowNumber.toNat < stripe.firstRowNumber.toNat + stripe.reservedRowCount.toNat := by
    omega
  obtain rfl := rows.layout.eq_of_mem_range hfoundStripe hstripe hfoundRange hstripeRange
  apply findStripeByRowNumber_eq_some.mpr ⟨hfound, ?_⟩
  rw [rows.stripeGetHighestRowNumber_toNat hfoundStripe]
  omega

/-- A stripe `FindStripeByRowNumber` finds is flushed, seen by the snapshot, and wrote the
row. -/
theorem written_of_findStripeByRowNumber (rows : RowsInvariant bound table)
    {rowNumber : UInt64} {stripe : StripeMetadata}
    (hfind : findStripeByRowNumber table.visibleStripes rowNumber = some stripe) :
    stripe ∈ table.visibleStripes ∧ 0 < stripe.rowCount.toNat ∧
      (rowNumber, stripe.id) ∈ table.writtenRows := by
  obtain ⟨hlookup, hle⟩ := findStripeByRowNumber_eq_some.mp hfind
  obtain ⟨hvisible, hfirst, -⟩ := (stripeMetadataLookupRowNumber_spec _ _).1 stripe hlookup
  have hstripe : stripe ∈ table.stripes := (List.mem_filter.mp hvisible).1
  rw [rows.stripeGetHighestRowNumber_toNat hstripe] at hle
  rw [UInt64.le_iff_toNat_le] at hfirst
  have hone := (rows.layout.range_le stripe hstripe).1
  -- an unflushed stripe has highest row number `firstRowNumber - 1`, below the row
  have hflushed : 0 < stripe.rowCount.toNat := by omega
  refine ⟨hvisible, hflushed, (rows.written_iff stripe hstripe rowNumber).mpr ⟨hfirst, ?_⟩⟩
  rcases rows.rowCount_eq stripe hstripe with h | h <;> omega

/-- The writers do not enter the invariant. -/
theorem withWriters (rows : RowsInvariant bound table) (writers : Nat → Option ColumnarWriteState) :
    RowsInvariant bound { table with writers := writers } :=
  ⟨rows.layout, rows.one_le_reservedStripeId, rows.reservedStripeId_le, rows.reservedRowNumber_le,
    rows.written_stripe, rows.written_iff, rows.writtenCount_le, rows.rowCount_eq, rows.written_nodup⟩

end RowsInvariant

/-! ## The writers -/

/-- What a writer's stripe buffers say of its stripe: it is a stripe of the table reserved
for the writer's stripe row count and not flushed yet, the buffers count every row
written to it, and there is room for one more. -/
def WriterStripe (table : ColumnarTable) (writeState : ColumnarWriteState) : Prop :=
  ∀ reservation rowCount, writeState.stripe = some (reservation, rowCount) →
    ∃ stripe ∈ table.stripes, stripe.id = reservation.stripeId ∧
      stripe.firstRowNumber = reservation.stripeFirstRowNumber ∧
      stripe.reservedRowCount = writeState.stripeRowCount ∧ stripe.rowCount = 0 ∧
      rowCount.toNat = table.writtenCount reservation.stripeId ∧
      rowCount.toNat < writeState.stripeRowCount.toNat

/-- No two writers write to one stripe. -/
def WritersDistinct (writers : Nat → Option ColumnarWriteState) : Prop :=
  ∀ writer other writeState otherState stripeId, writers writer = some writeState →
    writers other = some otherState → writeState.stripeId = some stripeId →
    otherState.stripeId = some stripeId → writer = other

theorem ColumnarWriteState.stripeId_of_stripe {writeState : ColumnarWriteState}
    {reservation : EmptyStripeReservation} {rowCount : UInt32}
    (hstripe : writeState.stripe = some (reservation, rowCount)) :
    writeState.stripeId = some reservation.stripeId := by
  simp [ColumnarWriteState.stripeId, hstripe]

/-- A writer looked up after one writer's state was set is that writer or untouched. -/
theorem update_writers_eq_some {writers : Nat → Option ColumnarWriteState} {writer other : Nat}
    {writeState otherState : ColumnarWriteState}
    (h : Function.update writers writer (some writeState) other = some otherState) :
    other = writer ∧ otherState = writeState ∨ other ≠ writer ∧ writers other = some otherState := by
  by_cases hother : other = writer
  · subst hother
    rw [Function.update_self] at h
    exact Or.inl ⟨rfl, (Option.some.inj h).symm⟩
  · rw [Function.update_of_ne hother] at h
    exact Or.inr ⟨hother, h⟩

namespace WriterStripe

variable {table table' : ColumnarTable} {writeState : ColumnarWriteState}

theorem of_stripe_none (hnone : writeState.stripe = none) : WriterStripe table writeState := by
  intro reservation rowCount hstripe
  rw [hnone] at hstripe
  cases hstripe

/-- A table that keeps the writer's stripe and the number of its rows keeps what the
writer's buffers say. -/
theorem keep (hwriter : WriterStripe table writeState)
    (hkeep : ∀ stripeId, writeState.stripeId = some stripeId →
      (∀ stripe ∈ table.stripes, stripe.id = stripeId → stripe ∈ table'.stripes) ∧
        table'.writtenCount stripeId = table.writtenCount stripeId) :
    WriterStripe table' writeState := by
  intro reservation rowCount hstripe
  obtain ⟨stripe, hmem, hid, hfirst, hreserved, hzero, hcount, hroom⟩ :=
    hwriter reservation rowCount hstripe
  obtain ⟨hstripes, hcount'⟩ := hkeep _ (ColumnarWriteState.stripeId_of_stripe hstripe)
  refine ⟨stripe, hstripes stripe hmem hid, hid, hfirst, hreserved, hzero, ?_, hroom⟩
  rw [hcount']
  exact hcount

end WriterStripe

/-- A stripe other than the one a map changes is still in the mapped list. -/
theorem mem_map_of_id_ne {stripes : List StripeMetadata} {stripe : StripeMetadata} {stripeId : UInt64}
    (update : StripeMetadata → StripeMetadata) (hstripe : stripe ∈ stripes) (hne : stripe.id ≠ stripeId) :
    stripe ∈ stripes.map fun other => if other.id = stripeId then update other else other :=
  List.mem_map.mpr ⟨stripe, hstripe, if_neg hne⟩

/-- Setting one writer's state keeps the writers distinct when its stripe is no other
writer's. -/
theorem WritersDistinct.update {writers : Nat → Option ColumnarWriteState}
    (hdistinct : WritersDistinct writers) {writer : Nat} {writeState : ColumnarWriteState}
    (hfresh : ∀ stripeId, writeState.stripeId = some stripeId → ∀ other otherState, other ≠ writer →
      writers other = some otherState → otherState.stripeId ≠ some stripeId) :
    WritersDistinct (Function.update writers writer (some writeState)) := by
  intro first second firstState secondState stripeId hfirstUpdated hsecondUpdated hfirstId hsecondId
  rcases update_writers_eq_some hfirstUpdated with ⟨rfl, rfl⟩ | ⟨hfirstNe, hfirst⟩ <;>
    rcases update_writers_eq_some hsecondUpdated with ⟨rfl, rfl⟩ | ⟨hsecondNe, hsecond⟩
  · rfl
  · exact absurd hsecondId (hfresh stripeId hfirstId second secondState hsecondNe hsecond)
  · exact absurd hfirstId (hfresh stripeId hsecondId first firstState hfirstNe hfirst)
  · exact hdistinct first second firstState secondState stripeId hfirst hsecond hfirstId hsecondId

/-- The row-number invariant: the rows invariant, and every writer has a stripe row count
in `[1, maxStripeRowCount]` and stripe buffers that agree with the table. -/
structure RowNumberInvariant (bound maxStripeRowCount : Nat) (table : ColumnarTable) : Prop
    extends RowsInvariant bound table where
  writer_stripeRowCount : ∀ writer writeState, table.writers writer = some writeState →
    1 ≤ writeState.stripeRowCount.toNat ∧ writeState.stripeRowCount.toNat ≤ maxStripeRowCount
  writer_stripe : ∀ writer writeState, table.writers writer = some writeState →
    WriterStripe table writeState
  writers_distinct : WritersDistinct table.writers

/-- The writers that survive the abort of a stripe: those not writing to it. -/
theorem abortWriters_eq_some {writers : Nat → Option ColumnarWriteState} {stripeId : UInt64}
    {writer : Nat} {writeState : ColumnarWriteState}
    (h : (match writers writer with
      | some writeState => if writeState.stripeId = some stripeId then none else some writeState
      | none => none) = some writeState) :
    writers writer = some writeState ∧ writeState.stripeId ≠ some stripeId := by
  cases hwriter : writers writer with
  | none =>
      rw [hwriter] at h
      cases h
  | some kept =>
      rw [hwriter] at h
      dsimp only at h
      split_ifs at h with hkept
      cases h
      exact ⟨rfl, hkept⟩

/-- A `UInt32` row count below `2 ^ 32 - 1` is incremented without wrapping. -/
theorem toNat_succ_of_lt {rowCount : UInt32} (h : rowCount.toNat + 1 < 2 ^ 32) :
    (rowCount + 1).toNat = rowCount.toNat + 1 := by
  rw [UInt32.toNat_add, UInt32.toNat_one]
  exact Nat.mod_eq_of_lt h

namespace RowNumberInvariant

variable {bound maxStripeRowCount : Nat} {table : ColumnarTable}

theorem empty : RowNumberInvariant 1 maxStripeRowCount ColumnarTable.empty where
  toRowsInvariant := RowsInvariant.empty
  writer_stripeRowCount := by simp [ColumnarTable.empty]
  writer_stripe := by simp [ColumnarTable.empty]
  writers_distinct := by simp [WritersDistinct, ColumnarTable.empty]

theorem mono (inv : RowNumberInvariant bound maxStripeRowCount table) {bound' : Nat}
    (hle : bound ≤ bound') : RowNumberInvariant bound' maxStripeRowCount table :=
  { inv with toRowsInvariant := inv.toRowsInvariant.mono hle }

/-- `ColumnarBeginWrite` adds a writer without stripe buffers. -/
theorem beginWrite (inv : RowNumberInvariant bound maxStripeRowCount table) {writer : Nat}
    {stripeRowCount : UInt64} (hone : 1 ≤ stripeRowCount)
    (hbound : stripeRowCount.toNat ≤ maxStripeRowCount) :
    RowNumberInvariant bound maxStripeRowCount { table with
      writers := Function.update table.writers writer (some ⟨stripeRowCount, none⟩) } where
  toRowsInvariant := inv.withWriters _
  writer_stripeRowCount other otherState hother := by
    rcases update_writers_eq_some hother with ⟨rfl, rfl⟩ | ⟨-, hother⟩
    · exact ⟨by simpa using UInt64.le_iff_toNat_le.mp hone, hbound⟩
    · exact inv.writer_stripeRowCount other otherState hother
  writer_stripe other otherState hother := by
    rcases update_writers_eq_some hother with ⟨rfl, rfl⟩ | ⟨-, hother⟩
    · exact WriterStripe.of_stripe_none rfl
    · exact inv.writer_stripe other otherState hother
  writers_distinct := inv.writers_distinct.update fun _ hid => by cases hid

/-- `ColumnarFlushPendingWrites` of a writer keeps the invariant: the stripe's row count
becomes the number of its rows, and no other writer is on it. -/
theorem flushWriter (inv : RowNumberInvariant bound maxStripeRowCount table) {writer : Nat}
    {writeState : ColumnarWriteState} (hwriter : table.writers writer = some writeState) :
    RowNumberInvariant bound maxStripeRowCount (table.flushWriter writer writeState) := by
  cases hstripe : writeState.stripe with
  | none =>
      rw [ColumnarTable.flushWriter_of_none hwriter hstripe]
      exact inv
  | some buffers =>
      obtain ⟨reservation, rowCount⟩ := buffers
      rw [ColumnarTable.flushWriter_of_stripe table writer hstripe]
      obtain ⟨-, -, -, -, -, -, hcount, -⟩ :=
        inv.writer_stripe writer writeState hwriter reservation rowCount hstripe
      constructor
      case toRowsInvariant =>
        apply RowsInvariant.withWriters
        apply inv.toRowsInvariant.completeStripeReservation
        rw [UInt32.toNat_toUInt64]
        exact hcount
      case writer_stripeRowCount =>
        intro other otherState hother
        rcases update_writers_eq_some hother with ⟨rfl, rfl⟩ | ⟨-, hother⟩
        · have hcounts := inv.writer_stripeRowCount _ _ hwriter
          exact hcounts
        · exact inv.writer_stripeRowCount other otherState hother
      case writer_stripe =>
        intro other otherState hother
        rcases update_writers_eq_some hother with ⟨rfl, rfl⟩ | ⟨hne, hother⟩
        · exact WriterStripe.of_stripe_none rfl
        · apply (inv.writer_stripe other otherState hother).keep
          intro stripeId hotherId
          -- the other writer's stripe is not the flushed one
          have hidNe : stripeId ≠ reservation.stripeId := by
            rintro rfl
            exact hne (inv.writers_distinct other writer otherState writeState _ hother hwriter
              hotherId (ColumnarWriteState.stripeId_of_stripe hstripe))
          refine ⟨fun stripe hmem hid => mem_map_of_id_ne _ hmem (hid ▸ hidNe), rfl⟩
      case writers_distinct => exact inv.writers_distinct.update fun _ hid => by cases hid

/-- The abort of a stripe drops the writers on it. -/
theorem abortStripe (inv : RowNumberInvariant bound maxStripeRowCount table) (stripeId : UInt64) :
    RowNumberInvariant bound maxStripeRowCount { table with
      stripes := table.stripes.map fun stripe =>
        if stripe.id = stripeId then { stripe with aborted := true } else stripe
      writers := fun writer =>
        match table.writers writer with
        | some writeState => if writeState.stripeId = some stripeId then none else some writeState
        | none => none } where
  toRowsInvariant := (inv.toRowsInvariant.abortStripe stripeId).withWriters _
  writer_stripeRowCount writer writeState hwriter :=
    inv.writer_stripeRowCount writer writeState (abortWriters_eq_some hwriter).1
  writer_stripe writer writeState hwriter := by
    obtain ⟨hkept, hidNe⟩ := abortWriters_eq_some hwriter
    apply (inv.writer_stripe writer writeState hkept).keep
    intro writerStripeId hid
    have hne : writerStripeId ≠ stripeId := fun h => hidNe (h ▸ hid)
    exact ⟨fun stripe hmem hstripeId => mem_map_of_id_ne _ hmem (hstripeId ▸ hne), rfl⟩
  writers_distinct writer other writeState otherState stripeId' hwriter hother :=
    inv.writers_distinct writer other writeState otherState stripeId'
      (abortWriters_eq_some hwriter).1 (abortWriters_eq_some hother).1

/-- A writer without stripe buffers takes the stripe `ReserveEmptyStripe` reserves for
its stripe row count; the bound grows by at most `maxStripeRowCount`. -/
theorem reserveEmptyStripe (inv : RowNumberInvariant bound maxStripeRowCount table) {writer : Nat}
    {writeState : ColumnarWriteState} (hwriter : table.writers writer = some writeState)
    (hfits : bound + maxStripeRowCount < 2 ^ 64) :
    RowNumberInvariant (bound + maxStripeRowCount) maxStripeRowCount
      { (table.reserveEmptyStripe writeState.stripeRowCount).1 with
        writers := Function.update table.writers writer
          (some { writeState with
            stripe := some ((table.reserveEmptyStripe writeState.stripeRowCount).2, 0) }) } := by
  obtain ⟨hone, hle⟩ := inv.writer_stripeRowCount writer writeState hwriter
  have hfresh := inv.written_ne_reservedStripeId
  constructor
  case toRowsInvariant =>
    exact (inv.toRowsInvariant.reserveEmptyStripe hone (Nat.add_le_add_left hle _) hfits).withWriters _
  case writer_stripeRowCount =>
    intro other otherState hother
    rcases update_writers_eq_some hother with ⟨rfl, rfl⟩ | ⟨-, hother⟩
    · exact ⟨hone, hle⟩
    · exact inv.writer_stripeRowCount other otherState hother
  case writer_stripe =>
    intro other otherState hother
    rcases update_writers_eq_some hother with ⟨rfl, rfl⟩ | ⟨-, hother⟩
    · -- the writer's new stripe is the last one, with no rows yet
      intro reservation rowCount hstripe
      simp only [Option.some.injEq, Prod.mk.injEq] at hstripe
      obtain ⟨rfl, rfl⟩ := hstripe
      refine ⟨⟨table.reservedStripeId, table.reservedRowNumber, 0, false, writeState.stripeRowCount⟩,
        by simp, rfl, rfl, rfl, rfl, ?_, ?_⟩
      · exact (ColumnarTable.writtenCount_eq_zero hfresh).symm
      · exact hone
    · apply (inv.writer_stripe other otherState hother).keep
      intro _ _
      exact ⟨fun stripe hmem _ => List.mem_append_left _ hmem, rfl⟩
  case writers_distinct =>
    apply inv.writers_distinct.update
    intro stripeId hid other otherState _ hother hotherId
    simp only [ColumnarWriteState.stripeId, Option.map_some, Option.some.injEq,
      ColumnarTable.reserveEmptyStripe_eq] at hid
    -- every other writer is on a stripe reserved before
    cases hotherStripe : otherState.stripe with
    | none =>
        rw [ColumnarWriteState.stripeId, hotherStripe] at hotherId
        cases hotherId
    | some buffers =>
        obtain ⟨reservation, rowCount⟩ := buffers
        obtain ⟨stripe, hmem, hstripeId, -⟩ :=
          inv.writer_stripe other otherState hother reservation rowCount hotherStripe
        have hlt := inv.layout.id_lt stripe hmem
        rw [ColumnarWriteState.stripeId_of_stripe hotherStripe, Option.some.injEq] at hotherId
        rw [hstripeId, hotherId, ← hid] at hlt
        exact Nat.lt_irrefl _ hlt

section recordRow

variable {writer : Nat} {writeState : ColumnarWriteState} {reservation : EmptyStripeReservation}
  {rowCount : UInt32}

/-- Numbering a writer's row keeps the rows invariant. -/
theorem rows_recordRow (inv : RowNumberInvariant bound maxStripeRowCount table)
    (hwriter : table.writers writer = some writeState)
    (hstripe : writeState.stripe = some (reservation, rowCount)) :
    RowsInvariant bound (table.recordRow writer writeState reservation rowCount) := by
  obtain ⟨stripe, hmem, hid, hfirst, hreserved, hzero, hcount, hroom⟩ :=
    inv.writer_stripe writer writeState hwriter reservation rowCount hstripe
  have hrange := inv.layout.range_le stripe hmem
  have hcounter := UInt64.toNat_lt table.reservedRowNumber
  -- the row number is the stripe's first plus its rows so far, inside its range
  have hrow : (reservation.stripeFirstRowNumber + rowCount.toUInt64).toNat =
      stripe.firstRowNumber.toNat + table.writtenCount stripe.id := by
    rw [UInt64.toNat_add, UInt32.toNat_toUInt64, ← hfirst, hid, ← hcount]
    apply Nat.mod_eq_of_lt
    rw [hreserved] at hrange
    omega
  have hrows := inv.toRowsInvariant.appendRow hmem hzero
    (by rw [hid, ← hcount, hreserved]; exact hroom) hrow
  rw [hid] at hrows
  exact hrows.withWriters _

/-- Another writer's stripe is not the one a row went to. -/
theorem stripeId_ne_of_ne (inv : RowNumberInvariant bound maxStripeRowCount table)
    (hwriter : table.writers writer = some writeState)
    (hstripe : writeState.stripe = some (reservation, rowCount)) {other : Nat}
    {otherState : ColumnarWriteState} (hne : other ≠ writer)
    (hother : table.writers other = some otherState) {stripeId : UInt64}
    (hotherId : otherState.stripeId = some stripeId) : reservation.stripeId ≠ stripeId := by
  rintro rfl
  exact hne (inv.writers_distinct other writer otherState writeState _ hother hwriter hotherId
    (ColumnarWriteState.stripeId_of_stripe hstripe))

/-- Numbering a row of a stripe with room for more keeps the invariant. -/
theorem recordRow (inv : RowNumberInvariant bound maxStripeRowCount table)
    (hwidth : maxStripeRowCount < 2 ^ 32) (hwriter : table.writers writer = some writeState)
    (hstripe : writeState.stripe = some (reservation, rowCount))
    (hroom : rowCount.toNat + 1 < writeState.stripeRowCount.toNat) :
    RowNumberInvariant bound maxStripeRowCount (table.recordRow writer writeState reservation rowCount) := by
  obtain ⟨-, hle⟩ := inv.writer_stripeRowCount writer writeState hwriter
  constructor
  case toRowsInvariant => exact inv.rows_recordRow hwriter hstripe
  case writer_stripeRowCount =>
    intro other otherState hother
    rw [ColumnarTable.recordRow_writers] at hother
    rcases update_writers_eq_some hother with ⟨rfl, rfl⟩ | ⟨-, hother⟩
    · have hcounts := inv.writer_stripeRowCount _ _ hwriter
      exact hcounts
    · exact inv.writer_stripeRowCount other otherState hother
  case writer_stripe =>
    intro other otherState hother
    rw [ColumnarTable.recordRow_writers] at hother
    rcases update_writers_eq_some hother with ⟨rfl, rfl⟩ | ⟨hne, hother⟩
    · -- the writer's buffers hold one more row of the same stripe
      intro reservation' rowCount' hstripe'
      simp only [Option.some.injEq, Prod.mk.injEq] at hstripe'
      obtain ⟨rfl, rfl⟩ := hstripe'
      obtain ⟨stripe, hmem, hid, hfirst, hreserved, hzero, hcount, -⟩ :=
        inv.writer_stripe other writeState hwriter reservation rowCount hstripe
      refine ⟨stripe, hmem, hid, hfirst, hreserved, hzero, ?_, ?_⟩
      · rw [ColumnarTable.recordRow_writtenCount, if_pos rfl, ← hcount]
        exact toNat_succ_of_lt (by omega)
      · rw [toNat_succ_of_lt (by omega)]
        exact hroom
    · apply (inv.writer_stripe other otherState hother).keep
      intro stripeId hotherId
      refine ⟨fun stripe hmem _ => hmem, ?_⟩
      rw [ColumnarTable.recordRow_writtenCount,
        if_neg (inv.stripeId_ne_of_ne hwriter hstripe hne hother hotherId), Nat.add_zero]
  case writers_distinct =>
    rw [ColumnarTable.recordRow_writers]
    apply inv.writers_distinct.update
    intro stripeId hid other otherState hne hother hotherId
    simp only [ColumnarWriteState.stripeId, Option.map_some, Option.some.injEq] at hid
    subst hid
    exact inv.stripeId_ne_of_ne hwriter hstripe hne hother hotherId rfl

/-- Numbering the last row of a stripe and flushing it keeps the invariant. -/
theorem recordRow_flushWriter (inv : RowNumberInvariant bound maxStripeRowCount table)
    (hwidth : maxStripeRowCount < 2 ^ 32) (hwriter : table.writers writer = some writeState)
    (hstripe : writeState.stripe = some (reservation, rowCount)) :
    RowNumberInvariant bound maxStripeRowCount
      ((table.recordRow writer writeState reservation rowCount).flushWriter writer
        { writeState with stripe := some (reservation, rowCount + 1) }) := by
  obtain ⟨-, hle⟩ := inv.writer_stripeRowCount writer writeState hwriter
  obtain ⟨-, -, -, -, -, -, hcount, hroom⟩ :=
    inv.writer_stripe writer writeState hwriter reservation rowCount hstripe
  rw [ColumnarTable.flushWriter_of_stripe _ writer rfl, ColumnarTable.recordRow_writers,
    Function.update_idem]
  constructor
  case toRowsInvariant =>
    apply RowsInvariant.withWriters
    apply (inv.rows_recordRow hwriter hstripe).completeStripeReservation
    rw [UInt32.toNat_toUInt64, ColumnarTable.recordRow_writtenCount, if_pos rfl, ← hcount]
    exact toNat_succ_of_lt (by omega)
  case writer_stripeRowCount =>
    intro other otherState hother
    rcases update_writers_eq_some hother with ⟨rfl, rfl⟩ | ⟨-, hother⟩
    · have hcounts := inv.writer_stripeRowCount _ _ hwriter
      exact hcounts
    · exact inv.writer_stripeRowCount other otherState hother
  case writer_stripe =>
    intro other otherState hother
    rcases update_writers_eq_some hother with ⟨rfl, rfl⟩ | ⟨hne, hother⟩
    · exact WriterStripe.of_stripe_none rfl
    · apply (inv.writer_stripe other otherState hother).keep
      intro stripeId hotherId
      have hidNe := inv.stripeId_ne_of_ne hwriter hstripe hne hother hotherId
      refine ⟨fun stripe hmem hid => mem_map_of_id_ne _ hmem (hid ▸ hidNe.symm), ?_⟩
      show (table.recordRow writer writeState reservation rowCount).writtenCount stripeId = _
      rw [ColumnarTable.recordRow_writtenCount, if_neg hidNe, Nat.add_zero]
  case writers_distinct => exact inv.writers_distinct.update fun _ hid => by cases hid

end recordRow

/-- A writer with stripe buffers numbers its row and flushes the stripe when it is full. -/
theorem writeRowResult_of_buffers (inv : RowNumberInvariant bound maxStripeRowCount table)
    (hwidth : maxStripeRowCount < 2 ^ 32) {writer : Nat} {writeState : ColumnarWriteState}
    {reservation : EmptyStripeReservation} {rowCount : UInt32}
    (hwriter : table.writers writer = some writeState)
    (hstripe : writeState.stripe = some (reservation, rowCount)) :
    RowNumberInvariant bound maxStripeRowCount (table.writeRowResult writer writeState) := by
  obtain ⟨-, hle⟩ := inv.writer_stripeRowCount writer writeState hwriter
  obtain ⟨-, -, -, -, -, -, -, hroom⟩ :=
    inv.writer_stripe writer writeState hwriter reservation rowCount hstripe
  have hsucc : (rowCount + 1).toNat = rowCount.toNat + 1 := toNat_succ_of_lt (by omega)
  rw [ColumnarTable.writeRowResult_of_stripe table writer hstripe]
  split_ifs with hfull
  · exact inv.recordRow_flushWriter hwidth hwriter hstripe
  · rw [UInt64.le_iff_toNat_le, UInt32.toNat_toUInt64, hsucc] at hfull
    exact inv.recordRow hwidth hwriter hstripe (by omega)

/-- `ColumnarWriteRow` keeps the invariant; a writer without stripe buffers first
reserves a stripe, which grows the bound by at most `maxStripeRowCount`. -/
theorem writeRowResult (inv : RowNumberInvariant bound maxStripeRowCount table)
    (hfits : bound + maxStripeRowCount < 2 ^ 64) (hwidth : maxStripeRowCount < 2 ^ 32)
    {writer : Nat} {writeState : ColumnarWriteState}
    (hwriter : table.writers writer = some writeState) :
    RowNumberInvariant (bound + maxStripeRowCount) maxStripeRowCount
      (table.writeRowResult writer writeState) := by
  cases hstripe : writeState.stripe with
  | some buffers =>
      obtain ⟨reservation, rowCount⟩ := buffers
      exact (inv.writeRowResult_of_buffers hwidth hwriter hstripe).mono (Nat.le_add_right _ _)
  | none =>
      rw [ColumnarTable.writeRowResult_of_none table writer hstripe]
      exact (inv.reserveEmptyStripe hwriter hfits).writeRowResult_of_buffers hwidth
        (Function.update_self _ _ _) rfl

/-- Every enabled event whose new writer's stripe row count is at most
`maxStripeRowCount` keeps the invariant, with the bound grown by `maxStripeRowCount`. -/
theorem step (inv : RowNumberInvariant bound maxStripeRowCount table)
    (hfits : bound + maxStripeRowCount < 2 ^ 64) (hwidth : maxStripeRowCount < 2 ^ 32)
    {event : ColumnarEvent} (hgood : event.StripeRowCountAtMost maxStripeRowCount)
    {table' : ColumnarTable} (hstep : columnarStep table event = some table') :
    RowNumberInvariant (bound + maxStripeRowCount) maxStripeRowCount table' := by
  cases event with
  | beginWrite writer stripeRowCount =>
      obtain ⟨-, hone, rfl⟩ := columnarStep_beginWrite hstep
      exact (inv.beginWrite hone hgood).mono (Nat.le_add_right _ _)
  | writeRow writer =>
      obtain ⟨writeState, hwriter, rfl⟩ := columnarStep_writeRow hstep
      exact inv.writeRowResult hfits hwidth hwriter
  | flush writer =>
      obtain ⟨writeState, hwriter, rfl⟩ := columnarStep_flush hstep
      exact (inv.flushWriter hwriter).mono (Nat.le_add_right _ _)
  | abortStripe stripeId =>
      rw [columnarStep_abortStripe hstep]
      exact (inv.abortStripe stripeId).mono (Nat.le_add_right _ _)

/-- After `k` events from an empty table the counters are at most
`1 + maxStripeRowCount * k`, and the invariant holds. -/
theorem run (hwidth : maxStripeRowCount < 2 ^ 32) {events : List ColumnarEvent}
    (hgood : ∀ event ∈ events, event.StripeRowCountAtMost maxStripeRowCount)
    (hfits : 1 + maxStripeRowCount * events.length < 2 ^ 64)
    (hrun : events.foldlM columnarStep ColumnarTable.empty = some table) :
    RowNumberInvariant (1 + maxStripeRowCount * events.length) maxStripeRowCount table := by
  -- the bound grows by `maxStripeRowCount` per event, and stays below `2 ^ 64` on the run
  have hstep : ∀ k table event table', k < events.length →
      RowNumberInvariant (1 + maxStripeRowCount * k) maxStripeRowCount table →
      event.StripeRowCountAtMost maxStripeRowCount → columnarStep table event = some table' →
      RowNumberInvariant (1 + maxStripeRowCount * (k + 1)) maxStripeRowCount table' := by
    intro k table event table' hk inv hgoodEvent hstepEvent
    have hgrow : maxStripeRowCount * (k + 1) ≤ maxStripeRowCount * events.length :=
      Nat.mul_le_mul_left _ hk
    rw [Nat.mul_succ] at hgrow ⊢
    rw [← Nat.add_assoc]
    exact inv.step (by omega) hwidth hgoodEvent hstepEvent
  have hempty : RowNumberInvariant (1 + maxStripeRowCount * 0) maxStripeRowCount ColumnarTable.empty := by
    rw [Nat.mul_zero]
    exact RowNumberInvariant.empty
  have hinv := EventRun.foldlM_indexed_invariant
    (fun k table => RowNumberInvariant (1 + maxStripeRowCount * k) maxStripeRowCount table)
    (ColumnarEvent.StripeRowCountAtMost maxStripeRowCount) events.length hstep hempty
    (Nat.le_of_eq (Nat.zero_add _)) hgood hrun
  rw [Nat.zero_add] at hinv
  exact hinv

end RowNumberInvariant

/-! ## Row numbers over whole runs -/

/-- Two writers with stripe row counts `2` and `3` interleave, one stripe is aborted, and
the other is flushed. -/
def interleavedWriteEvents : List ColumnarEvent :=
  [.beginWrite 0 2, .beginWrite 1 3, .writeRow 0, .writeRow 1, .writeRow 0, .writeRow 1,
    .beginWrite 2 3, .writeRow 2, .abortStripe 3, .flush 1]

/-- A writer with `stripeRowCount = 2^64 - 1` writes row `1` and wraps the counter
round to `0`; a writer with `stripeRowCount = 2` then writes rows `0` and `1`. -/
def wrappedReservationEvents : List ColumnarEvent :=
  [.beginWrite 0 18446744073709551615, .writeRow 0, .beginWrite 1 2, .writeRow 1, .writeRow 1]

end Citus.Columnar
