import Mathlib

/-!
# Datums as the bytes their types read

Columnar storage copies datums between rows, buffers and catalog `bytea`s with the
macros of PostgreSQL's tuple layout: `att_addlength_datum` gives the number of bytes a
datum occupies, `att_align_nominal` rounds an offset up to a type's alignment, and
`store_att_byval` and `fetch_att` move a datum into and out of bytes.

A datum is modelled by the bytes its type's functions read: the low `attlen` bytes of a
by-value datum, the bytes a by-reference datum points to as far as its type reads them.
A datum read through a pointer into a buffer is the bytes from the pointer on, cut at
the length the type reads there: its fixed length, the size in a varlena's header
(`VARSIZE_ANY`), or up to and with a C string's terminating zero (`strlen`).

A datum of a column (`DatumFitsAttribute`) is one whose type reads exactly its bytes,
whatever follows them. Such a datum comes back from any buffer it was copied to the
front of (`fetchAtt_append_of_fits`), which is what every round trip through a buffer
rests on.

## Implementation notes

* Varlena headers are read as on a little-endian machine.
-/

namespace Citus.Columnar

/-- A `Datum`, by the bytes its type's functions read. -/
abbrev Datum := List UInt8

/-- A type's `typalign`. -/
inductive TypeAlign
  | char
  | short
  | int
  | double
  deriving DecidableEq, Repr

/-- The alignment in bytes. -/
def TypeAlign.bytes : TypeAlign → Nat
  | .char => 1
  | .short => 2
  | .int => 4
  | .double => 8

/-- `att_align_nominal`: an offset rounded up to the type's alignment (`TYPEALIGN`). -/
def attAlignNominal (offset : Nat) (attalign : TypeAlign) : Nat :=
  (offset + attalign.bytes - 1) / attalign.bytes * attalign.bytes

theorem TypeAlign.bytes_pos (attalign : TypeAlign) : 0 < attalign.bytes := by
  cases attalign <;> decide

theorem le_attAlignNominal (offset : Nat) (attalign : TypeAlign) :
    offset ≤ attAlignNominal offset attalign := by
  have hpos := attalign.bytes_pos
  unfold attAlignNominal
  have hmod := Nat.mod_lt (offset + attalign.bytes - 1) hpos
  have hdiv := Nat.div_add_mod (offset + attalign.bytes - 1) attalign.bytes
  rw [Nat.mul_comm] at hdiv
  omega

theorem dvd_attAlignNominal (offset : Nat) (attalign : TypeAlign) :
    attalign.bytes ∣ attAlignNominal offset attalign :=
  Nat.dvd_mul_left _ _

/-- An offset that is already aligned moves the aligned end by itself. -/
theorem attAlignNominal_add_of_dvd {offset : Nat} (length : Nat) {attalign : TypeAlign}
    (haligned : attalign.bytes ∣ offset) :
    attAlignNominal (offset + length) attalign = offset + attAlignNominal length attalign := by
  obtain ⟨k, rfl⟩ := haligned
  have hpos := attalign.bytes_pos
  unfold attAlignNominal
  rw [show attalign.bytes * k + length + attalign.bytes - 1 =
      (length + attalign.bytes - 1) + k * attalign.bytes by
        rw [Nat.mul_comm]
        omega,
    Nat.add_mul_div_right _ _ hpos, Nat.add_mul, Nat.mul_comm k, Nat.add_comm]

/-- A column's `Form_pg_attribute`, by the fields columnar storage reads. Only
fixed-length types are passed by value. -/
structure FormPgAttribute where
  atttypid : Nat
  attlen : Int
  attbyval : Bool
  attalign : TypeAlign
  attcollation : Nat
  byval_fixed : attbyval = true → 0 < attlen

/-- A `TupleDesc`: the number of columns and their attributes. -/
structure TupleDesc where
  natts : Nat
  attrs : Nat → FormPgAttribute

/-- A row as `ColumnarWriteRow` gets it and a read returns it: a value per column,
`none` where the column is NULL. -/
abbrev Row := List (Option Datum)

/-- The value of a column in a row. -/
def columnValue (row : Row) (columnIndex : Nat) : Option Datum :=
  row.getD columnIndex none

/-! ### Lengths -/

/-- `VARTAG_SIZE`: the size of an external TOAST pointer's payload by its tag
(indirect, expanded read-only or read-write, on disk). -/
def vartagSize (tag : UInt8) : Nat :=
  if tag = 1 then 8
  else if tag = 2 ∨ tag = 3 then 8
  else if tag = 18 then 16
  else 0

/-- `VARSIZE_ANY` of the varlena at the start of the bytes: an external TOAST pointer
(header `0x01`) has a two-byte header and its tag's payload; a one-byte header with its
low bit set holds the size in its upper seven bits; a four-byte header holds it in its
upper thirty. -/
def varsizeAny : List UInt8 → Nat
  | [] => 0
  | header :: rest =>
      if header = 0x01 then 2 + vartagSize (rest.headD 0)
      else if header &&& 0x01 = 0x01 then (header >>> 1).toNat
      else (header.toNat + 256 * (rest.getD 0 0).toNat + 65536 * (rest.getD 1 0).toNat +
        16777216 * (rest.getD 2 0).toNat) / 4 % 2 ^ 30

/-- `strlen`: the number of bytes before the first zero. -/
def strlen (bytes : List UInt8) : Nat :=
  (bytes.takeWhile (· != 0)).length

/-- `att_addlength_datum(0, attlen, value)`: the fixed length, the size of a varlena,
or the bytes of a C string with its terminating zero. -/
def attAddlengthDatum (attlen : Int) (value : Datum) : Nat :=
  if 0 < attlen then attlen.toNat
  else if attlen = -1 then varsizeAny value
  else strlen value + 1

/-- `datumCopy`: a by-value datum as it is, a by-reference one as a copy of its
`datumGetSize` bytes. -/
def datumCopy (value : Datum) (typByVal : Bool) (typLen : Int) : Datum :=
  if typByVal then value else value.take (attAddlengthDatum typLen value)

/-- `fetch_att`: a by-value datum read back from its `attlen` bytes, or the datum a
pointer to the bytes points to. -/
def fetchAtt (bytes : List UInt8) (attbyval : Bool) (attlen : Int) : Datum :=
  if attbyval then bytes.take attlen.toNat else bytes.take (attAddlengthDatum attlen bytes)

/-- A datum of a column: its type reads exactly its bytes, whatever follows them. -/
def DatumFitsAttribute (attrForm : FormPgAttribute) (value : Datum) : Prop :=
  ∀ rest : List UInt8, attAddlengthDatum attrForm.attlen (value ++ rest) = value.length

/-- A row of the tuple descriptor: each non-NULL value is a datum of its column. -/
def RowFitsTupleDesc (tupleDescriptor : TupleDesc) (row : Row) : Prop :=
  ∀ columnIndex < tupleDescriptor.natts, ∀ value, columnValue row columnIndex = some value →
    DatumFitsAttribute (tupleDescriptor.attrs columnIndex) value

section Fits

variable {attrForm : FormPgAttribute} {value : Datum}

theorem attAddlengthDatum_of_fits (hfits : DatumFitsAttribute attrForm value) :
    attAddlengthDatum attrForm.attlen value = value.length := by
  have hempty := hfits []
  rwa [List.append_nil] at hempty

/-- A datum of a fixed-length type has its `attlen` bytes. -/
theorem DatumFitsAttribute.length_eq (hfits : DatumFitsAttribute attrForm value)
    (hfixed : 0 < attrForm.attlen) : value.length = attrForm.attlen.toNat := by
  rw [← attAddlengthDatum_of_fits hfits]
  unfold attAddlengthDatum
  rw [if_pos hfixed]

/-- A value with the fixed length of its type is a datum of the column. -/
theorem datumFitsAttribute_of_length (hfixed : 0 < attrForm.attlen)
    (hlength : value.length = attrForm.attlen.toNat) : DatumFitsAttribute attrForm value := by
  intro rest
  unfold attAddlengthDatum
  rw [if_pos hfixed, hlength]

/-- A varlena with a one-byte header that holds its size is a datum of the column. -/
theorem datumFitsAttribute_of_shortVarlena {header : UInt8} {data : List UInt8}
    (hvarlena : attrForm.attlen = -1) (hexternal : header ≠ 0x01)
    (hshort : header &&& 0x01 = 0x01) (hsize : (header >>> 1).toNat = data.length + 1) :
    DatumFitsAttribute attrForm (header :: data) := by
  have hnotFixed : ¬((0 : Int) < -1) := by decide
  intro rest
  simp only [attAddlengthDatum, hvarlena, hnotFixed, List.cons_append, varsizeAny, hexternal,
    hshort, ↓reduceIte, List.length_cons, hsize]

@[simp] theorem datumCopy_of_fits (hfits : DatumFitsAttribute attrForm value) :
    datumCopy value attrForm.attbyval attrForm.attlen = value := by
  unfold datumCopy
  split_ifs
  · rfl
  · rw [attAddlengthDatum_of_fits hfits, List.take_length]

/-- A datum of a column at the front of a buffer reads back unchanged. -/
theorem fetchAtt_append_of_fits (hfits : DatumFitsAttribute attrForm value) (rest : List UInt8) :
    fetchAtt (value ++ rest) attrForm.attbyval attrForm.attlen = value := by
  unfold fetchAtt
  split_ifs with hbyval
  · rw [← hfits.length_eq (attrForm.byval_fixed hbyval), List.take_left']
    rfl
  · rw [hfits rest, List.take_left']
    rfl

end Fits

end Citus.Columnar
