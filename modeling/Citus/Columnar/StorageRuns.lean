import Citus.Columnar.Storage

/-!
# Runs of reservations and writes on columnar storage

The writers of a columnar relation reserve a range with `ColumnarStorageReserveData` and
then fill it front to back with `ColumnarStorageWrite`, each write starting where the
previous one into that reservation ended. `StorageReachable` is every state such calls
reach from `ColumnarStorageInit`, with the list of reservations as their callers hold
them, as long as each reservation ends a page below the last `BlockNumber`.

`StorageInvariant` holds of every such state (`StorageReachable.invariant`). Each
reservation starts on a page boundary at or above `ColumnarFirstLogicalOffset`, the
reservations are in offset order and do not overlap, the relation has the blocks of all
of them, and the pages of a reservation hold the bytes written so far, with `pd_lower`
at the write cursor and the pages after it still new. From it every next write of the
discipline succeeds and every read of written bytes returns them.
-/

namespace Citus.Columnar

/-- A reservation as its caller holds it: the offset `ColumnarStorageReserveData`
returned, the amount reserved, and the bytes written into it so far. -/
structure Reservation where
  offset : Nat
  amount : Nat
  written : List UInt8

/-- The logical offset the next write into the reservation starts at. -/
def Reservation.cursor (r : Reservation) : Nat := r.offset + r.written.length

@[simp] theorem Reservation.cursor_append (r : Reservation) (piece : List UInt8) :
    ({ r with written := r.written ++ piece } : Reservation).cursor =
      r.cursor + piece.length := by
  simp only [Reservation.cursor, List.length_append]
  omega

/-- The states a columnar relation reaches from `ColumnarStorageInit` under reservations
that end below the last `BlockNumber` and writes that fill each reservation front to back;
the list holds the reservations in the order they were made. -/
inductive StorageReachable : ColumnarStorage → List Reservation → Prop
  | init (rdId : Nat) : StorageReachable (columnarStorageInit rdId) []
  | reserveData {rel : ColumnarStorage} {rs : List Reservation} (amount : Nat) :
      StorageReachable rel rs → 0 < amount →
      rel.reservedOffset + amount ≤ columnarBytesPerPage * maxBlockNumber →
      StorageReachable (columnarStorageReserveData rel amount).1
        (rs ++ [⟨(columnarStorageReserveData rel amount).2, amount, []⟩])
  | write {rel rel' : ColumnarStorage} {rs : List Reservation} {index : Nat} {r : Reservation}
      (data : List UInt8) : StorageReachable rel rs → rs[index]? = some r →
      r.written.length + data.length ≤ r.amount →
      columnarStorageWrite rel r.cursor data = .ok rel' →
      StorageReachable rel' (rs.set index { r with written := r.written ++ data })

/-- What the pages of a reservation hold while it is filled front to back. -/
structure ReservationHolds (rel : ColumnarStorage) (r : Reservation) : Prop where
  aligned : r.offset % columnarBytesPerPage = 0
  first_le : columnarFirstLogicalOffset ≤ r.offset
  amount_pos : 0 < r.amount
  written_le : r.written.length ≤ r.amount
  end_le : r.offset + r.amount ≤ columnarBytesPerPage * 2 ^ 32
  blocks : (r.offset + r.amount - 1) / columnarBytesPerPage < rel.nblocks
  /-- Every written byte sits below its page's `pd_lower`. -/
  written : ∀ i < r.written.length,
    sizeOfPageHeaderData + (r.offset + i) % columnarBytesPerPage <
        (rel.pages ((r.offset + i) / columnarBytesPerPage)).pdLower ∧
      (rel.pages ((r.offset + i) / columnarBytesPerPage)).bytes
        (sizeOfPageHeaderData + (r.offset + i) % columnarBytesPerPage) = r.written.getD i 0
  /-- Inside a page, the cursor's page is initialized with `pd_lower` at the cursor. -/
  cursor : r.written.length < r.amount → r.cursor % columnarBytesPerPage ≠ 0 →
    (rel.pages (r.cursor / columnarBytesPerPage)).pdUpper = blcksz ∧
      (rel.pages (r.cursor / columnarBytesPerPage)).pdLower =
        sizeOfPageHeaderData + r.cursor % columnarBytesPerPage
  /-- The pages that start at or after the cursor are new. -/
  fresh : ∀ q, r.cursor ≤ q → q < r.offset + r.amount → q % columnarBytesPerPage = 0 →
    pageIsNew (rel.pages (q / columnarBytesPerPage)) = true

/-- What every reachable state keeps. -/
structure StorageInvariant (rel : ColumnarStorage) (rs : List Reservation) : Prop where
  first_le : columnarFirstLogicalOffset ≤ rel.reservedOffset
  nblocks_le :
    rel.nblocks ≤ (rel.reservedOffset + columnarBytesPerPage - 1) / columnarBytesPerPage
  holds : ∀ r ∈ rs, ReservationHolds rel r
  end_le : ∀ r ∈ rs, r.offset + r.amount ≤ rel.reservedOffset
  ordered : rs.Pairwise fun r1 r2 => r1.offset + r1.amount ≤ r2.offset

section Reservations

variable {rel rel' : ColumnarStorage} {r : Reservation}

/-- A reservation keeps holding when blocks are added and its own pages stay as they are. -/
theorem ReservationHolds.frame (h : ReservationHolds rel r) (hnblocks : rel.nblocks ≤ rel'.nblocks)
    (hpages : ∀ q, r.offset ≤ q → q < r.offset + r.amount →
      rel'.pages (q / columnarBytesPerPage) = rel.pages (q / columnarBytesPerPage)) :
    ReservationHolds rel' r where
  aligned := h.aligned
  first_le := h.first_le
  amount_pos := h.amount_pos
  written_le := h.written_le
  end_le := h.end_le
  blocks := Nat.lt_of_lt_of_le h.blocks hnblocks
  written i hi := by
    have hle := h.written_le
    rw [hpages (r.offset + i) (by omega) (by omega)]
    exact h.written i hi
  cursor hlt hmod := by
    rw [hpages r.cursor (by unfold Reservation.cursor; omega) (by unfold Reservation.cursor; omega)]
    exact h.cursor hlt hmod
  fresh q hcursor hend hmod := by
    rw [hpages q (by unfold Reservation.cursor at hcursor; omega) hend]
    exact h.fresh q hcursor hend hmod

/-- Positions of two reservations that do not overlap lie on different blocks. -/
theorem ReservationHolds.div_ne {r₁ r₂ : Reservation} (h₁ : ReservationHolds rel r₁)
    (h₂ : ReservationHolds rel' r₂)
    (hdisjoint : r₁.offset + r₁.amount ≤ r₂.offset ∨ r₂.offset + r₂.amount ≤ r₁.offset)
    {p q : Nat} (hp : r₁.offset ≤ p ∧ p < r₁.offset + r₁.amount)
    (hq : r₂.offset ≤ q ∧ q < r₂.offset + r₂.amount) :
    p / columnarBytesPerPage ≠ q / columnarBytesPerPage := by
  have haligned₁ := h₁.aligned
  have haligned₂ := h₂.aligned
  rw [columnarBytesPerPage_eq] at *
  omega

/-- Appending a piece at the cursor, within the cursor's page and the reservation: the
page the block write leaves behind holds the piece and moves `pd_lower` past it. -/
theorem ReservationHolds.append {piece : List UInt8} {page : Page} (h : ReservationHolds rel r)
    (hpiece : 0 < piece.length)
    (hfit : r.cursor % columnarBytesPerPage + piece.length ≤ columnarBytesPerPage)
    (hamount : r.written.length + piece.length ≤ r.amount)
    (hlower : page.pdLower = sizeOfPageHeaderData + r.cursor % columnarBytesPerPage)
    (hupper : page.pdUpper = blcksz)
    (hsame : r.cursor % columnarBytesPerPage ≠ 0 →
      page = rel.pages (r.cursor / columnarBytesPerPage)) :
    ReservationHolds (rel.setPage (r.cursor / columnarBytesPerPage)
      { page with
        pdLower := sizeOfPageHeaderData + r.cursor % columnarBytesPerPage + piece.length,
        bytes := copyBytes page.bytes (sizeOfPageHeaderData + r.cursor % columnarBytesPerPage)
          piece })
      { r with written := r.written ++ piece } where
  aligned := h.aligned
  first_le := h.first_le
  amount_pos := h.amount_pos
  written_le := by
    rw [List.length_append]
    exact hamount
  end_le := h.end_le
  blocks := h.blocks
  written i hi := by
    rw [List.length_append] at hi
    dsimp only
    rw [ColumnarStorage.pages_setPage]
    have hcursor : r.cursor = r.offset + r.written.length := rfl
    by_cases hold : i < r.written.length
    · -- a byte written before: only its own page's `pd_lower` can have moved
      rw [List.getD_eq_getElem?_getD, List.getElem?_append_left hold,
        ← List.getD_eq_getElem?_getD]
      obtain ⟨hbelow, hbyte⟩ := h.written i hold
      split_ifs with hblock
      · have hmid : r.cursor % columnarBytesPerPage ≠ 0 := by
          rw [columnarBytesPerPage_eq] at hblock ⊢
          omega
        have hoffset : (r.offset + i) % columnarBytesPerPage < r.cursor % columnarBytesPerPage := by
          rw [columnarBytesPerPage_eq] at hblock ⊢
          omega
        rw [hblock, ← hsame hmid] at hbelow hbyte
        dsimp only
        refine ⟨by omega, ?_⟩
        rw [copyBytes_of_lt piece (by omega)]
        exact hbyte
      · exact ⟨hbelow, hbyte⟩
    · -- a byte of the piece: on the cursor's page, at the cursor plus its index
      have hj : i - r.written.length < piece.length := by omega
      have hpos : r.offset + i = r.cursor + (i - r.written.length) := by omega
      have hblock : (r.offset + i) / columnarBytesPerPage = r.cursor / columnarBytesPerPage := by
        rw [hpos, columnarBytesPerPage_eq] at *
        omega
      have hoffset : sizeOfPageHeaderData + (r.offset + i) % columnarBytesPerPage =
          sizeOfPageHeaderData + r.cursor % columnarBytesPerPage + (i - r.written.length) := by
        rw [hpos, columnarBytesPerPage_eq] at *
        omega
      rw [if_pos hblock, List.getD_eq_getElem?_getD, List.getElem?_append_right (by omega),
        ← List.getD_eq_getElem?_getD, hoffset]
      dsimp only
      rw [copyBytes_add hj]
      exact ⟨by omega, rfl⟩
  cursor hlt hmod := by
    rw [Reservation.cursor_append] at hmod ⊢
    rw [List.length_append] at hlt
    have hinside : r.cursor % columnarBytesPerPage + piece.length < columnarBytesPerPage := by
      rw [columnarBytesPerPage_eq] at hfit hmod ⊢
      omega
    have hblock : (r.cursor + piece.length) / columnarBytesPerPage =
        r.cursor / columnarBytesPerPage := by
      rw [columnarBytesPerPage_eq] at hinside ⊢
      omega
    have hoffset : (r.cursor + piece.length) % columnarBytesPerPage =
        r.cursor % columnarBytesPerPage + piece.length := by
      rw [columnarBytesPerPage_eq] at hinside ⊢
      omega
    rw [ColumnarStorage.pages_setPage, if_pos hblock, hoffset]
    exact ⟨hupper, by dsimp only; omega⟩
  fresh q hcursor hend hmod := by
    rw [Reservation.cursor_append] at hcursor
    rw [ColumnarStorage.pages_setPage]
    split_ifs with hblock
    · -- a page start past the cursor is on a later block than the cursor's
      rw [columnarBytesPerPage_eq] at hblock hmod
      omega
    · exact h.fresh q (by omega) hend hmod

/-- The bytes read from a written range of a reservation: the loop of
`ColumnarStorageRead` reads, page by page, what the reservation's pages hold. -/
theorem ReservationHolds.readLoop (h : ReservationHolds rel r) (fuel : Nat) :
    ∀ {start len : Nat}, start + len ≤ r.written.length → len ≤ fuel →
      columnarStorageReadLoop rel fuel (r.offset + start) len =
        .ok ((r.written.drop start).take len) := by
  induction fuel with
  | zero =>
      intro start len _ hfuel
      rw [Nat.le_zero.mp hfuel, List.take_zero]
      rfl
  | succ fuel ih =>
      intro start len hlen hfuel
      cases len with
      | zero => rw [List.take_zero]; rfl
      | succ len =>
          have hle := h.written_le
          have hend := h.end_le
          have hposition : r.offset + start < columnarBytesPerPage * 2 ^ 32 := by omega
          have hoffset := toNat_offset_logicalToPhysical (r.offset + start)
          have hblockno := toNat_blockno_logicalToPhysical_of_lt hposition
          rw [columnarStorageReadLoop]
          rw [hoffset]
          generalize htoRead : min (len + 1) (blcksz - (sizeOfPageHeaderData +
            (r.offset + start) % columnarBytesPerPage)) = toRead
          have hbounds : 0 < toRead ∧ toRead ≤ len + 1 ∧
              (r.offset + start) % columnarBytesPerPage + toRead ≤ columnarBytesPerPage := by
            rw [columnarBytesPerPage_eq, sizeOfPageHeaderData_eq, blcksz_eq] at *
            omega
          -- the piece lies on the page of its first byte, below that page's `pd_lower`
          have hsame : ∀ j < toRead,
              (r.offset + (start + j)) / columnarBytesPerPage =
                  (r.offset + start) / columnarBytesPerPage ∧
                (r.offset + (start + j)) % columnarBytesPerPage =
                  (r.offset + start) % columnarBytesPerPage + j := by
            intro j hj
            rw [columnarBytesPerPage_eq] at hbounds ⊢
            omega
          have hlast := h.written (start + (toRead - 1)) (by omega)
          rw [(hsame (toRead - 1) (by omega)).1, (hsame (toRead - 1) (by omega)).2] at hlast
          have hread : readFromBlock rel (logicalToPhysical (r.offset + start)).blockno
              (logicalToPhysical (r.offset + start)).offset toRead false =
                .ok ((List.range toRead).map fun j =>
                  (rel.pages ((r.offset + start) / columnarBytesPerPage)).bytes
                    (sizeOfPageHeaderData + (r.offset + start) % columnarBytesPerPage + j)) := by
            have hblocks := h.blocks
            have hread := @readFromBlock_eq_ok rel (logicalToPhysical (r.offset + start)).blockno
              (logicalToPhysical (r.offset + start)).offset toRead
              (by
                rw [hblockno]
                rw [columnarBytesPerPage_eq] at hblocks ⊢
                omega)
              (by
                rw [hoffset]
                rw [columnarBytesPerPage_eq, sizeOfPageHeaderData_eq, blcksz_eq] at *
                omega)
              (by
                rw [hoffset, hblockno]
                omega)
            rwa [hblockno, hoffset] at hread
          -- the piece is the written bytes from `start` on
          have hpiece : ((List.range toRead).map fun j =>
              (rel.pages ((r.offset + start) / columnarBytesPerPage)).bytes
                (sizeOfPageHeaderData + (r.offset + start) % columnarBytesPerPage + j)) =
              (r.written.drop start).take toRead := by
            apply List.ext_getElem
            · simp only [List.length_map, List.length_range, List.length_take, List.length_drop]
              omega
            · intro j hj _
              rw [List.length_map, List.length_range] at hj
              have hbyte := (h.written (start + j) (by omega)).2
              rw [(hsame j hj).1, (hsame j hj).2, ← Nat.add_assoc] at hbyte
              rw [List.getElem_map, List.getElem_range, hbyte, List.getElem_take,
                List.getElem_drop, List.getD_eq_getElem?_getD, List.getElem?_eq_getElem,
                Option.getD_some]
          have hrest := @ih (start + toRead) (len + 1 - toRead) (by omega) (by omega)
          rw [← Nat.add_assoc] at hrest
          rw [hread, hpiece]
          simp only [bind, Except.bind, hrest, pure, Except.pure]
          conv_rhs => rw [show len + 1 = toRead + (len + 1 - toRead) by omega]
          rw [List.take_add, List.drop_drop]

/-- `ColumnarStorageRead` of written bytes returns them. -/
theorem ReservationHolds.read (h : ReservationHolds rel r) {start len : Nat}
    (hlen : start + len ≤ r.written.length) :
    columnarStorageRead rel (r.offset + start) len = .ok ((r.written.drop start).take len) := by
  unfold columnarStorageRead
  by_cases hzero : len = 0
  · rw [if_pos hzero, hzero, List.take_zero]
  · have hvalid : columnarLogicalOffsetIsValid (r.offset + start) = true := by
      have := h.first_le
      simp only [columnarLogicalOffsetIsValid, decide_eq_true_eq]
      omega
    rw [if_neg hzero, hvalid, Bool.not_true, if_neg Bool.false_ne_true]
    exact h.readLoop len hlen (Nat.le_refl len)

end Reservations

section Lists

variable {rs : List Reservation} {index : Nat} {r : Reservation}

/-- Replacing an element by itself leaves the list as it is. -/
private theorem set_of_getElem? {α : Type} {l : List α} {i : Nat} {a : α}
    (h : l[i]? = some a) : l.set i a = l := by
  apply List.ext_getElem?
  intro j
  rw [List.getElem?_set]
  split_ifs with hj hlt
  · rw [← hj, h]
  · exact absurd (List.getElem?_eq_some_iff.mp h).1 hlt
  · rfl

/-- Two reservations of a list in offset order do not overlap. -/
private theorem disjoint_of_ordered
    (hordered : rs.Pairwise fun r₁ r₂ => r₁.offset + r₁.amount ≤ r₂.offset)
    {i j : Nat} (hi : i < rs.length) (hj : j < rs.length) (hne : i ≠ j) :
    rs[i].offset + rs[i].amount ≤ rs[j].offset ∨ rs[j].offset + rs[j].amount ≤ rs[i].offset := by
  rcases Nat.lt_or_gt_of_ne hne with hlt | hgt
  · exact Or.inl (List.pairwise_iff_getElem.mp hordered i j hi hj hlt)
  · exact Or.inr (List.pairwise_iff_getElem.mp hordered j i hj hi hgt)

/-- Writing into a reservation keeps the list's ranges, so their order. -/
private theorem ordered_set (hr : rs[index]? = some r) (written : List UInt8)
    (hordered : rs.Pairwise fun r₁ r₂ => r₁.offset + r₁.amount ≤ r₂.offset) :
    (rs.set index { r with written := written }).Pairwise
      fun r₁ r₂ => r₁.offset + r₁.amount ≤ r₂.offset := by
  have hranges : (rs.set index { r with written := written }).map (fun r => (r.offset, r.amount)) =
      rs.map (fun r => (r.offset, r.amount)) := by
    rw [List.map_set]
    apply set_of_getElem?
    rw [List.getElem?_map, hr, Option.map_some]
  have hpairs : (rs.map fun r => (r.offset, r.amount)).Pairwise
      fun p₁ p₂ : Nat × Nat => p₁.1 + p₁.2 ≤ p₂.1 :=
    List.pairwise_map.mpr hordered
  rw [← hranges] at hpairs
  exact List.pairwise_map.mp hpairs

end Lists

section Steps

variable {rel : ColumnarStorage} {rs : List Reservation}

theorem StorageInvariant.init (rdId : Nat) : StorageInvariant (columnarStorageInit rdId) [] where
  first_le := Nat.le_refl _
  nblocks_le := by
    dsimp only [columnarStorageInit]
    decide
  holds _ hr := absurd hr List.not_mem_nil
  end_le _ hr := absurd hr List.not_mem_nil
  ordered := List.Pairwise.nil

/-- A reservation that ends a page below the last block keeps the invariant: it starts on
the first page past every earlier one, and its pages are the new ones the relation is
extended by. -/
theorem StorageInvariant.reserveData {amount : Nat} (hinv : StorageInvariant rel rs)
    (hpos : 0 < amount)
    (hbound : rel.reservedOffset + amount ≤ columnarBytesPerPage * maxBlockNumber) :
    StorageInvariant (columnarStorageReserveData rel amount).1
      (rs ++ [⟨(columnarStorageReserveData rel amount).2, amount, []⟩]) := by
  have hfirst : 16336 ≤ rel.reservedOffset := hinv.first_le
  have hnblocks : rel.nblocks ≤ (rel.reservedOffset + 8167) / 8168 := hinv.nblocks_le
  have hlast : rel.reservedOffset + amount ≤ 8168 * 4294967294 := hbound
  have halign : alignReservation rel.reservedOffset =
      (rel.reservedOffset + columnarBytesPerPage - 1) / columnarBytesPerPage *
        columnarBytesPerPage :=
    alignReservation_eq (by rw [columnarBytesPerPage_eq]; omega)
  rw [columnarBytesPerPage_eq] at halign
  rw [columnarStorageReserveData_eq hpos (by rw [halign, columnarBytesPerPage_eq]; omega)]
  generalize alignReservation rel.reservedOffset = aligned at halign ⊢
  generalize hcount : (aligned + amount - 1) / columnarBytesPerPage + 1 - rel.nblocks = count
  rw [columnarBytesPerPage_eq] at hcount
  have hpages := @ColumnarStorage.pages_extendBy { rel with reservedOffset := aligned + amount }
    count
  have hextended : ({ rel with reservedOffset := aligned + amount } : ColumnarStorage).nblocks =
      rel.nblocks := rfl
  rw [hextended] at hpages
  -- the reservation's own pages are the appended ones
  have hnew : ReservationHolds (({ rel with reservedOffset := aligned + amount } :
      ColumnarStorage).extendBy count) ⟨aligned, amount, []⟩ := {
    aligned := by
      dsimp only
      rw [columnarBytesPerPage_eq]
      omega
    first_le := by
      dsimp only
      rw [columnarFirstLogicalOffset_eq]
      omega
    amount_pos := hpos
    written_le := Nat.zero_le _
    end_le := by
      dsimp only
      rw [columnarBytesPerPage_eq]
      omega
    blocks := by
      rw [ColumnarStorage.nblocks_extendBy, hextended, columnarBytesPerPage_eq]
      dsimp only
      omega
    written := fun i hi => absurd hi (Nat.not_lt_zero i)
    cursor := fun _ hmod => by
      unfold Reservation.cursor at hmod
      dsimp only at hmod
      rw [List.length_nil, columnarBytesPerPage_eq] at hmod
      omega
    fresh := fun q hcursor hend hmod => by
      unfold Reservation.cursor at hcursor
      dsimp only at hcursor hend
      rw [List.length_nil] at hcursor
      rw [columnarBytesPerPage_eq] at hmod ⊢
      rw [hpages, if_pos (by omega)]
      rfl }
  refine ⟨?_, ?_, ?_, ?_, ?_⟩
  · rw [ColumnarStorage.reservedOffset_extendBy, columnarFirstLogicalOffset_eq]
    dsimp only
    omega
  · rw [ColumnarStorage.nblocks_extendBy, hextended, ColumnarStorage.reservedOffset_extendBy,
      columnarBytesPerPage_eq]
    dsimp only
    omega
  · intro r hr
    rcases List.mem_append.mp hr with hold | hr
    · -- an earlier reservation's pages are below the old end of the relation
      have h := hinv.holds r hold
      apply h.frame (by rw [ColumnarStorage.nblocks_extendBy, hextended]; omega)
      intro q hq hend
      have hblocks := h.blocks
      rw [columnarBytesPerPage_eq] at hblocks ⊢
      rw [hpages, if_neg (by omega)]
    · rw [List.mem_singleton.mp hr]
      exact hnew
  · intro r hr
    rw [ColumnarStorage.reservedOffset_extendBy]
    rcases List.mem_append.mp hr with hold | hr
    · have := hinv.end_le r hold
      dsimp only
      omega
    · obtain rfl := List.mem_singleton.mp hr
      exact Nat.le_refl _
  · refine List.pairwise_append.mpr ⟨hinv.ordered, List.pairwise_singleton _ _, ?_⟩
    intro r hr r' hr'
    have := hinv.end_le r hr
    rw [List.mem_singleton.mp hr']
    dsimp only
    omega
/-- One round of the write loop at a reservation's cursor, inside the cursor's page and the
reservation: the block write succeeds and the reservation holds with the piece appended. -/
theorem StorageInvariant.writePiece {index : Nat} {r : Reservation} (piece : List UInt8)
    (hinv : StorageInvariant rel rs) (hr : rs[index]? = some r) (hpiece : 0 < piece.length)
    (hfit : r.cursor % columnarBytesPerPage + piece.length ≤ columnarBytesPerPage)
    (hamount : r.written.length + piece.length ≤ r.amount) :
    ∃ rel', writeToBlock rel (logicalToPhysical r.cursor).blockno
        (logicalToPhysical r.cursor).offset piece false = .ok rel' ∧
      StorageInvariant rel' (rs.set index { r with written := r.written ++ piece }) := by
  obtain ⟨hindex, hget⟩ := List.getElem?_eq_some_iff.mp hr
  have hmem : r ∈ rs := hget ▸ List.getElem_mem hindex
  have h := hinv.holds r hmem
  have hcursor : r.cursor < r.offset + r.amount := by
    unfold Reservation.cursor
    omega
  have hblockno := toNat_blockno_logicalToPhysical_of_lt (Nat.lt_of_lt_of_le hcursor h.end_le)
  have hoffset := toNat_offset_logicalToPhysical r.cursor
  -- the page the block write starts from is initialized with `pd_lower` at the cursor
  have hstart : ∃ page, (if pageIsNew (rel.pages (r.cursor / columnarBytesPerPage)) || false
        then pageInit else rel.pages (r.cursor / columnarBytesPerPage)) = page ∧
      page.pdLower = sizeOfPageHeaderData + r.cursor % columnarBytesPerPage ∧
      page.pdUpper = blcksz ∧
      (r.cursor % columnarBytesPerPage ≠ 0 → page = rel.pages (r.cursor / columnarBytesPerPage)) := by
    by_cases hmod : r.cursor % columnarBytesPerPage = 0
    · have hnew := h.fresh r.cursor (Nat.le_refl _) hcursor hmod
      exact ⟨pageInit, by rw [hnew]; rfl, by rw [hmod]; rfl, rfl, fun hne => absurd hmod hne⟩
    · obtain ⟨hupper, hlower⟩ := h.cursor (by unfold Reservation.cursor at hcursor; omega) hmod
      have hold : pageIsNew (rel.pages (r.cursor / columnarBytesPerPage)) = false := by
        rw [pageIsNew, hupper, blcksz_eq]
        rfl
      exact ⟨_, by rw [hold]; rfl, hlower, hupper, fun _ => rfl⟩
  obtain ⟨page, hpage, hlower, hupper, hsame⟩ := hstart
  have hblock : (logicalToPhysical r.cursor).blockno.toNat < rel.nblocks := by
    have hblocks := h.blocks
    rw [hblockno]
    rw [columnarBytesPerPage_eq] at hblocks ⊢
    omega
  have hfits : (logicalToPhysical r.cursor).offset.toNat + piece.length ≤ page.pdUpper := by
    rw [hoffset, hupper]
    rw [columnarBytesPerPage_eq] at hfit
    rw [columnarBytesPerPage_eq, sizeOfPageHeaderData_eq, blcksz_eq]
    omega
  refine ⟨_, writeToBlock_eq_ok hblock (by rw [hblockno]; exact hpage)
    (by rw [hoffset]; exact hlower) hfits, ?_⟩
  rw [hblockno, hoffset]
  refine ⟨hinv.first_le, hinv.nblocks_le, ?_, ?_, ordered_set hr _ hinv.ordered⟩
  · intro r₂ hr₂
    obtain ⟨j, hj, hr₂⟩ := List.getElem_of_mem hr₂
    rw [List.getElem_set] at hr₂
    split_ifs at hr₂ with hij
    · rw [← hr₂]
      exact h.append hpiece hfit hamount hlower hupper hsame
    · -- another reservation: none of its blocks is the cursor's
      rw [List.length_set] at hj
      have h₂ := hinv.holds rs[j] (List.getElem_mem hj)
      have hdisjoint := disjoint_of_ordered hinv.ordered hj hindex (Ne.symm hij)
      rw [hget] at hdisjoint
      rw [← hr₂]
      apply h₂.frame (Nat.le_of_eq (ColumnarStorage.nblocks_setPage _ _).symm)
      intro q hq hend
      rw [ColumnarStorage.pages_setPage, if_neg]
      exact h₂.div_ne h hdisjoint ⟨hq, hend⟩
        ⟨by unfold Reservation.cursor; omega, hcursor⟩
  · intro r₂ hr₂
    rcases List.mem_or_eq_of_mem_set hr₂ with hold | rfl
    · exact hinv.end_le r₂ hold
    · exact hinv.end_le r hmem

/-- The loop of `ColumnarStorageWrite` at a reservation's cursor, with bytes that fit the
reservation: every round's block write succeeds, and the reservation ends up holding all
of them. The induction is on the fuel; each round writes at least one byte. -/
theorem StorageInvariant.writeLoop (fuel : Nat) :
    ∀ {rel : ColumnarStorage} {rs : List Reservation} {index : Nat} {r : Reservation}
      {data : List UInt8}, StorageInvariant rel rs → rs[index]? = some r →
      r.written.length + data.length ≤ r.amount → data.length ≤ fuel →
      ∃ rel', columnarStorageWriteLoop fuel rel r.cursor data = .ok rel' ∧
        StorageInvariant rel' (rs.set index { r with written := r.written ++ data }) := by
  induction fuel with
  | zero =>
      intro rel rs index r data hinv hr _ hfuel
      rw [List.eq_nil_of_length_eq_zero (Nat.le_zero.mp hfuel), List.append_nil,
        set_of_getElem? hr]
      exact ⟨rel, rfl, hinv⟩
  | succ fuel ih =>
      intro rel rs index r data hinv hr hamount hfuel
      cases data with
      | nil =>
          rw [List.append_nil, set_of_getElem? hr]
          exact ⟨rel, rfl, hinv⟩
      | cons byte rest =>
          rw [columnarStorageWriteLoop, toNat_offset_logicalToPhysical]
          generalize htoWrite : min (byte :: rest).length
            (blcksz - (sizeOfPageHeaderData + r.cursor % columnarBytesPerPage)) = toWrite
          have hbounds : 0 < toWrite ∧ toWrite ≤ (byte :: rest).length ∧
              r.cursor % columnarBytesPerPage + toWrite ≤ columnarBytesPerPage := by
            rw [List.length_cons] at htoWrite ⊢
            rw [columnarBytesPerPage_eq, sizeOfPageHeaderData_eq, blcksz_eq] at *
            omega
          have hlength : ((byte :: rest).take toWrite).length = toWrite := by
            rw [List.length_take]
            omega
          obtain ⟨rel₁, hwrite, hinv₁⟩ := hinv.writePiece ((byte :: rest).take toWrite) hr
            (by omega) (by rw [hlength]; exact hbounds.2.2) (by rw [hlength]; omega)
          have hr₁ : (rs.set index { r with written := r.written ++ (byte :: rest).take toWrite
              })[index]? = some { r with written := r.written ++ (byte :: rest).take toWrite } :=
            List.getElem?_set_self (List.getElem?_eq_some_iff.mp hr).1
          obtain ⟨rel₂, hloop, hinv₂⟩ := @ih rel₁ _ index _ ((byte :: rest).drop toWrite) hinv₁ hr₁
            (by
              simp only [List.length_append, hlength, List.length_drop]
              omega)
            (by
              rw [List.length_drop]
              rw [List.length_cons] at hfuel ⊢
              omega)
          refine ⟨rel₂, ?_, ?_⟩
          · rw [hwrite]
            rw [Reservation.cursor_append, hlength] at hloop
            exact hloop
          · rw [List.set_set] at hinv₂
            dsimp only at hinv₂
            rw [List.append_assoc, List.take_append_drop] at hinv₂
            exact hinv₂

/-- `ColumnarStorageWrite` at a reservation's cursor, of bytes that fit the reservation,
succeeds and keeps the invariant. -/
theorem StorageInvariant.write {index : Nat} {r : Reservation} {data : List UInt8}
    (hinv : StorageInvariant rel rs) (hr : rs[index]? = some r)
    (hamount : r.written.length + data.length ≤ r.amount) :
    ∃ rel', columnarStorageWrite rel r.cursor data = .ok rel' ∧
      StorageInvariant rel' (rs.set index { r with written := r.written ++ data }) := by
  unfold columnarStorageWrite
  by_cases hempty : data.length = 0
  · rw [if_pos hempty, List.eq_nil_of_length_eq_zero hempty, List.append_nil, set_of_getElem? hr]
    exact ⟨rel, rfl, hinv⟩
  · have hvalid : columnarLogicalOffsetIsValid r.cursor = true := by
      have := (hinv.holds r (List.mem_of_getElem? hr)).first_le
      unfold columnarLogicalOffsetIsValid Reservation.cursor
      exact decide_eq_true (by omega)
    rw [if_neg hempty, hvalid, Bool.not_true, if_neg Bool.false_ne_true]
    exact hinv.writeLoop data.length hr hamount (Nat.le_refl _)

/-- Every reachable state keeps the invariant: induction on the run. -/
theorem StorageReachable.invariant (h : StorageReachable rel rs) : StorageInvariant rel rs := by
  induction h with
  | init rdId => exact StorageInvariant.init rdId
  | reserveData amount _ hpos hbound ih => exact ih.reserveData hpos hbound
  | write data _ hr hamount hwrite ih =>
      obtain ⟨rel', hwrite', hinv⟩ := ih.write hr hamount
      rw [hwrite] at hwrite'
      cases hwrite'
      exact hinv

end Steps

/-- Over every run of reservations that end a page below the last block and of writes that
fill each reservation front to back: each reservation starts on a page boundary at or
above `ColumnarFirstLogicalOffset` and its last byte is on an existing block, the
reservations are in offset order without overlap, every next write succeeds, and every
read of written bytes returns them. The address maps are inverse on logical offsets below
`COLUMNAR_BYTES_PER_PAGE * 2^32` and on addresses past the page header. -/
theorem columnarStorage_reservations :
    (∀ (rel : ColumnarStorage) (rs : List Reservation), StorageReachable rel rs →
      (∀ r ∈ rs, (logicalToPhysical r.offset).offset.toNat = sizeOfPageHeaderData ∧
          columnarFirstLogicalOffset ≤ r.offset ∧
          (logicalToPhysical (r.offset + r.amount - 1)).blockno.toNat < rel.nblocks) ∧
      rs.Pairwise (fun r₁ r₂ => r₁.offset + r₁.amount ≤ r₂.offset) ∧
      (∀ (index : Nat) (r : Reservation) (data : List UInt8), rs[index]? = some r →
          r.written.length + data.length ≤ r.amount →
          ∃ rel', columnarStorageWrite rel r.cursor data = .ok rel') ∧
      (∀ r ∈ rs, ∀ start len, start + len ≤ r.written.length →
          columnarStorageRead rel (r.offset + start) len =
            .ok ((r.written.drop start).take len))) ∧
    (∀ logicalOffset, logicalOffset < columnarBytesPerPage * 2 ^ 32 →
      physicalToLogical (logicalToPhysical logicalOffset) = logicalOffset) ∧
    (∀ addr : PhysicalAddr, sizeOfPageHeaderData ≤ addr.offset.toNat →
      addr.offset.toNat < blcksz → logicalToPhysical (physicalToLogical addr) = addr) := by
  refine ⟨fun rel rs hreach => ?_, fun _ h => physicalToLogical_logicalToPhysical h,
    fun _ hlow hhigh => logicalToPhysical_physicalToLogical hlow hhigh⟩
  have hinv := hreach.invariant
  refine ⟨fun r hr => ?_, hinv.ordered, fun index r data hr hamount => ?_,
    fun r hr start len hlen => (hinv.holds r hr).read hlen⟩
  · have h := hinv.holds r hr
    have hend := h.end_le
    have hpos := h.amount_pos
    have haligned := h.aligned
    have hblocks := h.blocks
    rw [toNat_offset_logicalToPhysical, toNat_blockno_logicalToPhysical_of_lt (by omega),
      haligned, Nat.add_zero]
    exact ⟨rfl, h.first_le, hblocks⟩
  · obtain ⟨rel', hwrite, _⟩ := hinv.write hr hamount
    exact ⟨rel', hwrite⟩

theorem columnarStorage_reservations_one_reservation :
    ∃ rel, StorageReachable rel [⟨columnarFirstLogicalOffset, 3, [7, 8, 9]⟩] ∧
      columnarStorageRead rel (columnarFirstLogicalOffset + 1) 2 = .ok [8, 9] := by
  have hoffset : (columnarStorageReserveData (columnarStorageInit 1) 3).2 =
      columnarFirstLogicalOffset := by decide
  have hreserved := StorageReachable.reserveData 3 (StorageReachable.init 1) (by decide)
    (by decide)
  rw [hoffset, List.nil_append] at hreserved
  obtain ⟨rel, hwrite⟩ := (columnarStorage_reservations.1 _ _ hreserved).2.2.1 0 _ [7, 8, 9] rfl
    (by decide)
  have hwritten := @StorageReachable.write _ rel _ 0 _ [7, 8, 9] hreserved rfl (by decide) hwrite
  refine ⟨rel, hwritten, ?_⟩
  exact (columnarStorage_reservations.1 _ _ hwritten).2.2.2 _ (List.mem_singleton_self _) 1 2
    (by decide)

end Citus.Columnar
