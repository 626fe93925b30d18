import Citus.Columnar.Datum
import Citus.Lib.Bitmap
import Citus.Lib.MachineInt
import Citus.Lib.Run

/-!
# The exists and value buffers of a chunk column

`ColumnarWriteRow` (`columnar_writer.c`) keeps, for each column of the chunk being
written, an array of exists flags and a value buffer: a non-NULL value is appended
to the buffer by `SerializeSingleDatum`, which pads it with zeros to its type's
alignment. When the chunk is flushed the flags are packed by `SerializeBoolArray`.
The reader (`columnar_reader.c`) unpacks them with `DeserializeBoolArray` and walks
the value buffer with `DeserializeDatumArray`, which aligns its running offset after
each datum.

The two agree because every slot the writer appends has an aligned length, so every
datum starts at an aligned offset and aligning the running offset is aligning the
datum's length (`attAlignNominal_add_of_dvd`). The flags come back as long as the
buffer's length times eight, which the reader computes in `int`, does not wrap to
below the number of flags: for `2 ^ 32 - 7` flags and more it wraps to zero and the
reader reports missing data (`deserializeBoolArray_serializeBoolArray_wraps`).

## Implementation notes

* A value is the bytes its type reads (`Datum`); the datum array the reader fills is
  a list, and a position whose flag is false keeps what it held.
* `int` and `uint32` arithmetic is integer arithmetic with the truncations of
  `MachineInt`.
-/

namespace Citus.Columnar

open Bitmap MachineInt

/-! ## Exists flags -/

/-- `SerializeBoolArray`: the flags packed eight to a byte into zeroed bytes. -/
def serializeBoolArray (boolArray : List Bool) (boolArrayLength : Nat) : List UInt8 :=
  let byteCount := (boolArrayLength * 1 + (8 - 1)) / 8
  (List.range boolArrayLength).foldl
    (fun boolArrayBuffer boolArrayIndex =>
      if boolArray.getD boolArrayIndex false then setBit boolArrayBuffer boolArrayIndex
      else boolArrayBuffer)
    (List.replicate byteCount 0)

/-- `DeserializeBoolArray`. The bound `boolArrayBuffer->len * 8` is an `int` product
stored into a `uint32`. -/
def deserializeBoolArray (boolArrayBuffer : List UInt8) (boolArrayLength : Nat) :
    Except String (List Bool) :=
  let maximumBoolCount : Int := toInt32 ((boolArrayBuffer.length : Int) * 8) % 2 ^ 32
  if maximumBoolCount < (boolArrayLength : Int) then
    .error "insufficient data for reading boolean array"
  else .ok ((List.range boolArrayLength).map fun boolArrayIndex =>
    testBit boolArrayBuffer boolArrayIndex)

/-- The byte count of `SerializeBoolArray`: eight flags to a byte, rounded up. -/
theorem byteCount_bounds (boolArrayLength : Nat) :
    boolArrayLength ≤ (boolArrayLength * 1 + (8 - 1)) / 8 * 8 ∧
      (boolArrayLength * 1 + (8 - 1)) / 8 * 8 < boolArrayLength + 8 := by
  omega

/-- The packing loop after its first `count` rounds: the zeroed bytes with exactly the
true flags below `count` set. -/
theorem serializeBoolArray_loop (boolArray : List Bool) {boolArrayLength : Nat} :
    ∀ count ≤ boolArrayLength,
      ((List.range count).foldl
          (fun boolArrayBuffer boolArrayIndex =>
            if boolArray.getD boolArrayIndex false then setBit boolArrayBuffer boolArrayIndex
            else boolArrayBuffer)
          (List.replicate ((boolArrayLength * 1 + (8 - 1)) / 8) 0)).length =
          (boolArrayLength * 1 + (8 - 1)) / 8 ∧
        ∀ index, testBit ((List.range count).foldl
          (fun boolArrayBuffer boolArrayIndex =>
            if boolArray.getD boolArrayIndex false then setBit boolArrayBuffer boolArrayIndex
            else boolArrayBuffer)
          (List.replicate ((boolArrayLength * 1 + (8 - 1)) / 8) 0)) index =
          (decide (index < count) && boolArray.getD index false) := by
  intro count
  induction count with
  | zero =>
      intro _
      refine ⟨List.length_replicate, fun index => ?_⟩
      rw [List.range_zero, List.foldl_nil, testBit_replicate_zero]
      simp
  | succ count ih =>
      intro hcount
      obtain ⟨hlength, hbits⟩ := ih (by omega)
      rw [List.range_succ, List.foldl_append, List.foldl_cons, List.foldl_nil]
      have hbyte : count / 8 < (boolArrayLength * 1 + (8 - 1)) / 8 := by omega
      by_cases hflag : boolArray.getD count false = true
      · -- a true flag sets its bit, in a byte that exists
        rw [if_pos hflag]
        refine ⟨by rw [setBit, List.length_modify, hlength], fun index => ?_⟩
        rw [testBit_setBit (by rw [hlength]; exact hbyte), hbits]
        by_cases hindex : index = count
        · rw [hindex]
          simp only [lt_irrefl, decide_false, Bool.false_and, Bool.false_or, beq_self_eq_true,
            Nat.lt_add_one, decide_true, Bool.true_and, hflag]
        · have hne : (count == index) = false := by simpa using Ne.symm hindex
          rw [hne, Bool.or_false]
          congr 1
          exact decide_eq_decide.mpr (by omega)
      · rw [if_neg hflag]
        refine ⟨hlength, fun index => ?_⟩
        rw [hbits]
        by_cases hindex : index = count
        · rw [hindex, Bool.eq_false_iff.mpr hflag, Bool.and_false, Bool.and_false]
        · congr 1
          exact decide_eq_decide.mpr (by omega)

theorem length_serializeBoolArray (boolArray : List Bool) (boolArrayLength : Nat) :
    (serializeBoolArray boolArray boolArrayLength).length =
      (boolArrayLength * 1 + (8 - 1)) / 8 :=
  (serializeBoolArray_loop boolArray boolArrayLength le_rfl).1

theorem testBit_serializeBoolArray (boolArray : List Bool) {boolArrayLength index : Nat}
    (hindex : index < boolArrayLength) :
    testBit (serializeBoolArray boolArray boolArrayLength) index = boolArray.getD index false := by
  have hbits := (serializeBoolArray_loop boolArray boolArrayLength le_rfl).2 index
  unfold serializeBoolArray
  rw [hbits, decide_eq_true hindex, Bool.true_and]

/-- Below `2 ^ 32 - 7` flags the reader's bound covers the packed bytes. -/
theorem maximumBoolCount_serializeBoolArray (boolArray : List Bool) {boolArrayLength : Nat}
    (hcount : boolArrayLength + 8 ≤ 2 ^ 32) :
    toInt32 (((serializeBoolArray boolArray boolArrayLength).length : Int) * 8) % 2 ^ 32 =
      (((boolArrayLength * 1 + (8 - 1)) / 8 * 8 : Nat) : Int) := by
  have hbounds := byteCount_bounds boolArrayLength
  rw [length_serializeBoolArray]
  unfold toInt32
  push_cast
  omega

/-- The flags come back from their packed bytes. -/
theorem deserializeBoolArray_serializeBoolArray (boolArray : List Bool)
    (hcount : boolArray.length + 8 ≤ 2 ^ 32) :
    deserializeBoolArray (serializeBoolArray boolArray boolArray.length) boolArray.length =
      .ok boolArray := by
  have hbounds := byteCount_bounds boolArray.length
  have hmax := maximumBoolCount_serializeBoolArray boolArray hcount
  have hcovered : ¬(((boolArray.length * 1 + (8 - 1)) / 8 * 8 : Nat) : Int) <
      (boolArray.length : Int) := by omega
  unfold deserializeBoolArray
  rw [hmax, if_neg hcovered]
  refine congrArg Except.ok (List.ext_getElem (by simp) ?_)
  intro index hindex _
  rw [List.getElem_map, List.getElem_range,
    testBit_serializeBoolArray boolArray (by simpa using hindex),
    List.getD_eq_getElem _ _ (by simpa using hindex)]

/-- From `2 ^ 32 - 7` flags on, `len * 8` wraps to zero and the check fires. -/
theorem deserializeBoolArray_serializeBoolArray_wraps (boolArray : List Bool)
    {boolArrayLength : Nat} (hlow : 2 ^ 32 - 7 ≤ boolArrayLength)
    (hhigh : boolArrayLength < 2 ^ 32) :
    deserializeBoolArray (serializeBoolArray boolArray boolArrayLength) boolArrayLength =
      .error "insufficient data for reading boolean array" := by
  have hbytes : (boolArrayLength * 1 + (8 - 1)) / 8 = 2 ^ 29 := by omega
  unfold deserializeBoolArray
  dsimp only
  rw [length_serializeBoolArray, hbytes, if_pos (by unfold toInt32; norm_num; omega)]

/-! ## Values -/

/-- `store_att_byval`: the low `attlen` bytes of a by-value datum. -/
def storeAttByval (datum : Datum) (attlen : Int) : List UInt8 :=
  datum.take attlen.toNat

/-- `SerializeSingleDatum`: the datum's bytes appended to the buffer in a zeroed slot
of its aligned length. -/
def serializeSingleDatum (datumBuffer : List UInt8) (datum : Datum) (datumTypeByValue : Bool)
    (datumTypeLength : Int) (datumTypeAlign : TypeAlign) : List UInt8 :=
  let datumLength := attAddlengthDatum datumTypeLength datum
  let datumLengthAligned := attAlignNominal datumLength datumTypeAlign
  let datumBytes :=
    if 0 < datumTypeLength then
      if datumTypeByValue then storeAttByval datum datumTypeLength
      else datum.take datumTypeLength.toNat
    else datum.take datumLength
  datumBuffer ++ (datumBytes ++ List.replicate (datumLengthAligned - datumBytes.length) 0)

/-- The exists flags and the value buffer of one column of the chunk being written. -/
structure ColumnChunkBuffers where
  existsArray : List Bool
  valueBuffer : List UInt8
  deriving DecidableEq, Repr

/-- The part of `ColumnarWriteRow` that writes one column's value of a row. -/
def writeColumnValue (attributeForm : FormPgAttribute) (chunkData : ColumnChunkBuffers) :
    Option Datum → ColumnChunkBuffers
  | none => { chunkData with existsArray := chunkData.existsArray ++ [false] }
  | some columnValue =>
      ⟨chunkData.existsArray ++ [true],
        serializeSingleDatum chunkData.valueBuffer columnValue attributeForm.attbyval
          attributeForm.attlen attributeForm.attalign⟩

/-- The column's buffers after the values of a chunk's rows were written. -/
def writeColumnValues (attributeForm : FormPgAttribute) (values : List (Option Datum)) :
    ColumnChunkBuffers :=
  values.foldl (writeColumnValue attributeForm) ⟨[], []⟩

/-- One iteration of `DeserializeDatumArray`: the datum array and the running offset. -/
def deserializeDatumStep (datumBuffer : List UInt8) (existsArray : List Bool)
    (datumTypeByValue : Bool) (datumTypeLength : Int) (datumTypeAlign : TypeAlign)
    (state : List Datum × Nat) (datumIndex : Nat) : Except String (List Datum × Nat) :=
  let (datumArray, currentDatumDataOffset) := state
  if !existsArray.getD datumIndex false then .ok state
  else
    let currentDatumDataPointer := datumBuffer.drop currentDatumDataOffset
    let datum := fetchAtt currentDatumDataPointer datumTypeByValue datumTypeLength
    let offset := currentDatumDataOffset + attAddlengthDatum datumTypeLength currentDatumDataPointer
    let offset := attAlignNominal offset datumTypeAlign
    if datumBuffer.length < offset then .error "insufficient data left in datum buffer"
    else .ok (datumArray.set datumIndex datum, offset)

/-- `DeserializeDatumArray`: the datums of the positions whose flag is set, read from
the buffer in order. -/
def deserializeDatumArray (datumBuffer : List UInt8) (existsArray : List Bool)
    (datumCount : Nat) (datumTypeByValue : Bool) (datumTypeLength : Int)
    (datumTypeAlign : TypeAlign) (datumArray : List Datum) : Except String (List Datum) :=
  Prod.fst <$> (List.range datumCount).foldlM
    (deserializeDatumStep datumBuffer existsArray datumTypeByValue datumTypeLength datumTypeAlign)
    (datumArray, 0)

/-! ## The value buffer of fitting datums -/

/-- The slot `SerializeSingleDatum` appends for a datum of the column: the datum and
zeros up to its aligned length. -/
def datumSlot (attributeForm : FormPgAttribute) (value : Datum) : List UInt8 :=
  value ++ List.replicate (attAlignNominal value.length attributeForm.attalign - value.length) 0

/-- The value buffer of a chunk column: the slots of its non-NULL values in order. -/
def valueSlots (attributeForm : FormPgAttribute) (values : List (Option Datum)) : List UInt8 :=
  (values.filterMap id).flatMap (datumSlot attributeForm)

section Slots

variable {attributeForm : FormPgAttribute}

@[simp] theorem valueSlots_nil : valueSlots attributeForm [] = [] := rfl

@[simp] theorem valueSlots_cons_none (values : List (Option Datum)) :
    valueSlots attributeForm (none :: values) = valueSlots attributeForm values := rfl

@[simp] theorem valueSlots_cons_some (value : Datum) (values : List (Option Datum)) :
    valueSlots attributeForm (some value :: values) =
      datumSlot attributeForm value ++ valueSlots attributeForm values := rfl

theorem length_datumSlot (value : Datum) :
    (datumSlot attributeForm value).length =
      attAlignNominal value.length attributeForm.attalign := by
  have hle := le_attAlignNominal value.length attributeForm.attalign
  simp only [datumSlot, List.length_append, List.length_replicate]
  omega

/-- Every slot, and so every prefix of slots, has an aligned length. -/
theorem dvd_length_valueSlots (values : List (Option Datum)) :
    attributeForm.attalign.bytes ∣ (valueSlots attributeForm values).length := by
  induction values with
  | nil => exact Nat.dvd_zero _
  | cons value values ih =>
      cases value with
      | none => rwa [valueSlots_cons_none]
      | some value =>
          rw [valueSlots_cons_some, List.length_append, length_datumSlot]
          exact Nat.dvd_add (dvd_attAlignNominal _ _) ih

theorem valueSlots_append (values values' : List (Option Datum)) :
    valueSlots attributeForm (values ++ values') =
      valueSlots attributeForm values ++ valueSlots attributeForm values' := by
  simp only [valueSlots, List.filterMap_append, List.flatMap_append]

/-- A datum of the column is written as its slot. -/
theorem serializeSingleDatum_of_fits {value : Datum}
    (hfits : DatumFitsAttribute attributeForm value) (datumBuffer : List UInt8) :
    serializeSingleDatum datumBuffer value attributeForm.attbyval attributeForm.attlen
      attributeForm.attalign = datumBuffer ++ datumSlot attributeForm value := by
  have hlength := attAddlengthDatum_of_fits hfits
  -- each branch copies the whole datum: its length is the length its type reads
  have hbytes : (if 0 < attributeForm.attlen then
      (if attributeForm.attbyval then storeAttByval value attributeForm.attlen
        else value.take attributeForm.attlen.toNat)
      else value.take (attAddlengthDatum attributeForm.attlen value)) = value := by
    split_ifs with hfixed
    · rw [storeAttByval, ← hfits.length_eq hfixed, List.take_length]
    · rw [← hfits.length_eq hfixed, List.take_length]
    · rw [hlength, List.take_length]
  simp only [serializeSingleDatum]
  rw [hbytes, hlength]
  rfl

/-- Writing the values of a chunk's rows: a flag per row, and the slots of the
non-NULL values. -/
theorem writeColumnValues_eq {values : List (Option Datum)}
    (hfits : ∀ value, some value ∈ values → DatumFitsAttribute attributeForm value) :
    writeColumnValues attributeForm values =
      ⟨values.map Option.isSome, valueSlots attributeForm values⟩ := by
  suffices hloop : ∀ chunkData : ColumnChunkBuffers,
      values.foldl (writeColumnValue attributeForm) chunkData =
        ⟨chunkData.existsArray ++ values.map Option.isSome,
          chunkData.valueBuffer ++ valueSlots attributeForm values⟩ by
    simpa [writeColumnValues] using hloop ⟨[], []⟩
  induction values with
  | nil => simp
  | cons value values ih =>
      intro chunkData
      have hrest := ih fun v hv => hfits v (List.mem_cons_of_mem _ hv)
      cases value with
      | none => simp [writeColumnValue, hrest]
      | some value =>
          have hvalue := hfits value List.mem_cons_self
          simp [writeColumnValue, hrest, serializeSingleDatum_of_fits hvalue]

/-- A position without a value is skipped. -/
theorem deserializeDatumStep_of_absent {datumBuffer : List UInt8} {existsArray : List Bool}
    {datumIndex : Nat} (hflag : existsArray.getD datumIndex false = false)
    (state : List Datum × Nat) :
    deserializeDatumStep datumBuffer existsArray attributeForm.attbyval attributeForm.attlen
      attributeForm.attalign state datumIndex = .ok state := by
  obtain ⟨datumArray, offset⟩ := state
  simp only [deserializeDatumStep, hflag, Bool.not_false, if_true]

/-- A value whose slot starts at the running offset, which is aligned, is read and
the offset moves past its slot. -/
theorem deserializeDatumStep_of_slot {existsArray : List Bool} {datumIndex : Nat}
    (hflag : existsArray.getD datumIndex false = true) {value : Datum}
    (hfits : DatumFitsAttribute attributeForm value) (front rest : List UInt8)
    (haligned : attributeForm.attalign.bytes ∣ front.length) (datumArray : List Datum) :
    deserializeDatumStep (front ++ datumSlot attributeForm value ++ rest) existsArray
        attributeForm.attbyval attributeForm.attlen attributeForm.attalign
        (datumArray, front.length) datumIndex =
      .ok (datumArray.set datumIndex value, front.length + (datumSlot attributeForm value).length) := by
  have hpointer : (front ++ datumSlot attributeForm value ++ rest).drop front.length =
      value ++ (List.replicate (attAlignNominal value.length attributeForm.attalign -
        value.length) 0 ++ rest) := by
    rw [List.append_assoc, List.drop_left, datumSlot, List.append_assoc]
  have hoffset : attAlignNominal (front.length + attAddlengthDatum attributeForm.attlen
      (value ++ (List.replicate (attAlignNominal value.length attributeForm.attalign -
        value.length) 0 ++ rest))) attributeForm.attalign =
      front.length + (datumSlot attributeForm value).length := by
    rw [hfits, attAlignNominal_add_of_dvd _ haligned, length_datumSlot]
  have hwithin : ¬(front ++ datumSlot attributeForm value ++ rest).length <
      front.length + (datumSlot attributeForm value).length := by
    simp only [List.length_append]
    omega
  simp only [deserializeDatumStep, hflag, Bool.not_true, Bool.false_eq_true, if_false]
  rw [hpointer, fetchAtt_append_of_fits hfits, hoffset, if_neg hwithin]

/-- The buffer split at a position: the slots before it, its own, and those after. -/
theorem valueSlots_split {values : List (Option Datum)} {index : Nat}
    (hindex : index < values.length) :
    valueSlots attributeForm values =
      valueSlots attributeForm (values.take index) ++
        (valueSlots attributeForm [values[index]] ++
          valueSlots attributeForm (values.drop (index + 1))) := by
  conv_lhs => rw [← List.take_append_drop index values, List.drop_eq_getElem_cons hindex]
  rw [valueSlots_append, ← List.singleton_append, valueSlots_append]

theorem valueSlots_take_succ {values : List (Option Datum)} {index : Nat}
    (hindex : index < values.length) :
    valueSlots attributeForm (values.take (index + 1)) =
      valueSlots attributeForm (values.take index) ++ valueSlots attributeForm [values[index]] := by
  rw [List.take_add_one, List.getElem?_eq_getElem hindex, Option.toList_some, valueSlots_append]

/-- `DeserializeDatumArray` over the buffer of a chunk column, after its first `count`
rounds: the offset is the length of the slots before position `count`, the values
before it are read into their positions, and every other position keeps what it held. -/
theorem deserializeDatumArray_loop {values : List (Option Datum)}
    (hfits : ∀ value, some value ∈ values → DatumFitsAttribute attributeForm value)
    {datumArray : List Datum} (hlength : datumArray.length = values.length) :
    ∀ count ≤ values.length, ∃ readArray : List Datum,
      (List.range count).foldlM
          (deserializeDatumStep (valueSlots attributeForm values) (values.map Option.isSome)
            attributeForm.attbyval attributeForm.attlen attributeForm.attalign)
          (datumArray, 0) =
        .ok (readArray, (valueSlots attributeForm (values.take count)).length) ∧
      readArray.length = datumArray.length ∧
      (∀ index < count, ∀ value, values[index]? = some (some value) →
        readArray[index]? = some value) ∧
      (∀ index, (count ≤ index ∨ values[index]? = some none) →
        readArray[index]? = datumArray[index]?) := by
  intro count
  induction count with
  | zero =>
      intro _
      exact ⟨datumArray, rfl, rfl, fun _ h => absurd h (Nat.not_lt_zero _), fun _ _ => rfl⟩
  | succ count ih =>
      intro hcount
      obtain ⟨readArray, hloop, hreadLength, hread, hkept⟩ := ih (by omega)
      have hindex : count < values.length := by omega
      rw [List.range_succ, List.foldlM_append, hloop, valueSlots_take_succ hindex]
      simp only [bind, Except.bind, List.foldlM_cons, List.foldlM_nil, pure, Except.pure]
      cases hvalue : values[count] with
      | none =>
          -- a NULL: the round changes nothing
          have hflag : (values.map Option.isSome).getD count false = false := by
            rw [List.getD_eq_getElem _ _ (by simpa using hindex), List.getElem_map, hvalue]
            rfl
          rw [deserializeDatumStep_of_absent hflag]
          refine ⟨readArray, by simp, hreadLength, fun index hlt value hsome => ?_,
            fun index hcases => hkept index ?_⟩
          · have hne : index ≠ count := by
              rintro rfl
              rw [List.getElem?_eq_getElem hindex, hvalue] at hsome
              cases hsome
            exact hread index (by omega) value hsome
          · rcases hcases with hle | hnull
            · by_cases heq : index = count
              · subst heq
                right
                rw [List.getElem?_eq_getElem hindex, hvalue]
              · left
                omega
            · right
              exact hnull
      | some value =>
          -- a value: read from its slot, which starts at the running offset
          have hflag : (values.map Option.isSome).getD count false = true := by
            rw [List.getD_eq_getElem _ _ (by simpa using hindex), List.getElem_map, hvalue]
            rfl
          have hfit := hfits value (hvalue ▸ List.getElem_mem hindex)
          have hslots := @valueSlots_split attributeForm _ _ hindex
          rw [hvalue, valueSlots_cons_some, valueSlots_nil, List.append_nil] at hslots
          rw [hslots, ← List.append_assoc,
            deserializeDatumStep_of_slot hflag hfit _ _ (dvd_length_valueSlots _),
            valueSlots_cons_some, valueSlots_nil, List.append_nil, List.length_append]
          refine ⟨readArray.set count value, rfl, by rw [List.length_set, hreadLength],
            fun index hlt value' hsome => ?_, fun index hcases => ?_⟩
          · rw [List.getElem?_set]
            by_cases heq : count = index
            · subst heq
              rw [List.getElem?_eq_getElem hindex, hvalue] at hsome
              cases hsome
              rw [if_pos rfl, if_pos (by omega)]
            · rw [if_neg heq]
              exact hread index (by omega) value' hsome
          · have hne : count ≠ index := by
              rintro rfl
              rcases hcases with hle | hnull
              · omega
              · rw [List.getElem?_eq_getElem hindex, hvalue] at hnull
                cases hnull
            rw [List.getElem?_set, if_neg hne]
            apply hkept index
            rcases hcases with hle | hnull
            · left
              omega
            · right
              exact hnull

end Slots

/-! ## The round trip -/

/-- A chunk column round trip, for fewer than `2 ^ 32 - 7` rows: the flags of the NULL
pattern that `SerializeBoolArray` packed come back from `DeserializeBoolArray`, and
`DeserializeDatumArray` over the value buffer reads every non-NULL value back into its
position without reporting missing data, leaving the NULL positions as they were. -/
theorem columnChunk_roundTrip_of_length (attributeForm : FormPgAttribute) (values : List (Option Datum))
    (hfits : ∀ value, some value ∈ values → DatumFitsAttribute attributeForm value)
    (hcount : values.length + 8 ≤ 2 ^ 32) (datumArray : List Datum)
    (hlength : datumArray.length = values.length) :
    (writeColumnValues attributeForm values).existsArray = values.map Option.isSome ∧
    deserializeBoolArray
        (serializeBoolArray (writeColumnValues attributeForm values).existsArray values.length)
        values.length = .ok (writeColumnValues attributeForm values).existsArray ∧
    ∃ readArray : List Datum,
      deserializeDatumArray (writeColumnValues attributeForm values).valueBuffer
          (writeColumnValues attributeForm values).existsArray values.length
          attributeForm.attbyval attributeForm.attlen attributeForm.attalign datumArray =
        .ok readArray ∧
      readArray.length = values.length ∧
      (∀ (index : Nat) (value : Datum), values[index]? = some (some value) →
        readArray[index]? = some value) ∧
      (∀ index : Nat, values[index]? = some none → readArray[index]? = datumArray[index]?) := by
  rw [writeColumnValues_eq hfits]
  obtain ⟨readArray, hloop, hreadLength, hread, hkept⟩ :=
    deserializeDatumArray_loop hfits hlength values.length le_rfl
  have hflags := deserializeBoolArray_serializeBoolArray (values.map Option.isSome)
    (by rwa [List.length_map])
  rw [List.length_map] at hflags
  refine ⟨rfl, hflags, readArray, ?_, hreadLength.trans hlength, ?_, ?_⟩
  · rw [deserializeDatumArray, hloop]
    rfl
  · intro index value hsome
    have hindex : index < values.length := (List.getElem?_eq_some_iff.mp hsome).1
    exact hread index hindex value hsome
  · intro index hnull
    exact hkept index (Or.inr hnull)

/-- `CHUNK_ROW_COUNT_MAXIMUM`: the largest `chunk_group_row_limit`, so the most rows a
chunk group holds. -/
def chunkRowCountMaximum : Nat := 100000

/-- The round trip of every chunk columnar writes: a chunk holds at most
`CHUNK_ROW_COUNT_MAXIMUM` rows, well below the `int` bound of `DeserializeBoolArray`. -/
theorem columnChunk_roundTrip (attributeForm : FormPgAttribute) (values : List (Option Datum))
    (hfits : ∀ value, some value ∈ values → DatumFitsAttribute attributeForm value)
    (hcount : values.length ≤ chunkRowCountMaximum) (datumArray : List Datum)
    (hlength : datumArray.length = values.length) :
    (writeColumnValues attributeForm values).existsArray = values.map Option.isSome ∧
    deserializeBoolArray
        (serializeBoolArray (writeColumnValues attributeForm values).existsArray values.length)
        values.length = .ok (writeColumnValues attributeForm values).existsArray ∧
    ∃ readArray : List Datum,
      deserializeDatumArray (writeColumnValues attributeForm values).valueBuffer
          (writeColumnValues attributeForm values).existsArray values.length
          attributeForm.attbyval attributeForm.attlen attributeForm.attalign datumArray =
        .ok readArray ∧
      readArray.length = values.length ∧
      (∀ (index : Nat) (value : Datum), values[index]? = some (some value) →
        readArray[index]? = some value) ∧
      (∀ index : Nat, values[index]? = some none → readArray[index]? = datumArray[index]?) := by
  have hbound : values.length + 8 ≤ 2 ^ 32 := by
    unfold chunkRowCountMaximum at hcount
    omega
  exact columnChunk_roundTrip_of_length attributeForm values hfits hbound datumArray hlength

/-- The attribute of an `int4` column. -/
def int4Attribute : FormPgAttribute := ⟨23, 4, true, .int, 0, fun _ => by decide⟩

/-- Three rows of an `int4` column, the middle one NULL. -/
def int4Values : List (Option Datum) := [some [1, 0, 0, 0], none, some [2, 0, 0, 0]]

theorem columnChunk_roundTrip_int4 :
    (∀ value, some value ∈ int4Values → DatumFitsAttribute int4Attribute value) ∧
    int4Values.length ≤ chunkRowCountMaximum ∧
    (writeColumnValues int4Attribute int4Values).existsArray = int4Values.map Option.isSome ∧
    deserializeBoolArray
        (serializeBoolArray (writeColumnValues int4Attribute int4Values).existsArray
          int4Values.length)
        int4Values.length = .ok (writeColumnValues int4Attribute int4Values).existsArray ∧
    ∃ readArray : List Datum,
      deserializeDatumArray (writeColumnValues int4Attribute int4Values).valueBuffer
          (writeColumnValues int4Attribute int4Values).existsArray int4Values.length
          int4Attribute.attbyval int4Attribute.attlen int4Attribute.attalign [[], [], []] =
        .ok readArray ∧
      readArray.length = int4Values.length ∧
      (∀ (index : Nat) (value : Datum), int4Values[index]? = some (some value) →
        readArray[index]? = some value) ∧
      (∀ index : Nat, int4Values[index]? = some none →
        readArray[index]? = ([[], [], []] : List Datum)[index]?) := by
  have hfits : ∀ value, some value ∈ int4Values → DatumFitsAttribute int4Attribute value := by
    intro value hmem
    apply datumFitsAttribute_of_length (by decide)
    simp only [int4Values, List.mem_cons, List.mem_nil_iff, or_false, Option.some.injEq,
      reduceCtorEq, false_or] at hmem
    rcases hmem with rfl | rfl <;> rfl
  exact ⟨hfits, by decide, columnChunk_roundTrip int4Attribute int4Values hfits (by decide)
    [[], [], []] rfl⟩

end Citus.Columnar
