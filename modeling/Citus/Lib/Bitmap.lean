import Mathlib

/-!
# Bit arrays packed into bytes

A bit array kept eight bits to a byte, bit `i` in bit `i % 8` of byte `i / 8`, least
significant first. Setting a bit ors its mask into its byte (`setBit`), testing it ands
the byte with the mask (`testBit`). Setting bit `i` changes no other bit
(`testBit_setBit`), and zero bytes hold no bit (`testBit_replicate_zero`), so a bit
array packed by setting its true bits into zeroed bytes reads back bit for bit.
-/

namespace Bitmap

/-- The byte with only bit `bitIndex` set, for a bit index below eight. -/
def bitmask (bitIndex : Nat) : UInt8 :=
  (1 <<< bitIndex : Nat).toUInt8

/-- Bit `index` of the bytes; a bit past the last byte is clear. -/
def testBit (bytes : List UInt8) (index : Nat) : Bool :=
  (bytes.getD (index / 8) 0 &&& bitmask (index % 8)) != 0

/-- The bytes with bit `index` set. -/
def setBit (bytes : List UInt8) (index : Nat) : List UInt8 :=
  bytes.modify (index / 8) (· ||| bitmask (index % 8))

theorem bitmask_toNat {bitIndex : Nat} (hbit : bitIndex < 8) :
    (bitmask bitIndex).toNat = 2 ^ bitIndex := by
  have hlt : 2 ^ bitIndex < 2 ^ 8 := Nat.pow_lt_pow_right (by decide) hbit
  unfold bitmask
  rw [Nat.one_shiftLeft]
  exact (UInt8.toNat_ofNat_of_lt' hlt).trans rfl

/-- Anding a byte with a mask tests the mask's bit. -/
theorem and_bitmask_ne_zero (x : UInt8) {bitIndex : Nat} (hbit : bitIndex < 8) :
    ((x &&& bitmask bitIndex) != 0) = x.toNat.testBit bitIndex := by
  have hiff : (x &&& bitmask bitIndex) ≠ 0 ↔ x.toNat.testBit bitIndex = true := by
    rw [Ne, ← UInt8.toNat_inj, UInt8.toNat_and, bitmask_toNat hbit, Nat.and_two_pow]
    cases x.toNat.testBit bitIndex <;> simp
  by_cases hset : x.toNat.testBit bitIndex = true
  · rw [hset]
    exact bne_iff_ne.mpr (hiff.mpr hset)
  · rw [Bool.eq_false_iff.mpr hset]
    simpa using fun hne => hset (hiff.mp hne)

/-- Oring a mask into a byte sets the mask's bit and keeps the others. -/
theorem testBit_or_bitmask (x : UInt8) {bitIndex : Nat} (hbit : bitIndex < 8) (other : Nat) :
    (x ||| bitmask bitIndex).toNat.testBit other = (x.toNat.testBit other || bitIndex == other) := by
  rw [UInt8.toNat_or, Nat.testBit_or, bitmask_toNat hbit, Nat.testBit_two_pow]
  congr 1

theorem testBit_replicate_zero (count index : Nat) :
    testBit (List.replicate count 0) index = false := by
  unfold testBit
  have hzero : (List.replicate count (0 : UInt8)).getD (index / 8) 0 = 0 := by
    rw [List.getD_eq_getElem?_getD, List.getElem?_replicate]
    split_ifs <;> rfl
  rw [hzero]
  simp

/-- Setting a bit inside the bytes sets it and changes no other bit. -/
theorem testBit_setBit {bytes : List UInt8} {index : Nat} (hindex : index / 8 < bytes.length)
    (other : Nat) : testBit (setBit bytes index) other = (testBit bytes other || index == other) := by
  unfold testBit setBit
  rw [List.getD_eq_getElem?_getD, List.getD_eq_getElem?_getD, List.getElem?_modify]
  by_cases hbyte : index / 8 = other / 8
  · -- the same byte: one more bit of it is set
    obtain ⟨x, hx⟩ : ∃ x, bytes[other / 8]? = some x :=
      List.getElem?_eq_some_iff.mpr ⟨hbyte ▸ hindex, rfl⟩ |> fun h => ⟨_, h⟩
    rw [hx, Option.map_eq_map, Option.map_some, Option.getD_some, Option.getD_some, if_pos hbyte,
      and_bitmask_ne_zero _ (Nat.mod_lt _ (by decide)),
      and_bitmask_ne_zero _ (Nat.mod_lt _ (by decide)),
      testBit_or_bitmask _ (Nat.mod_lt _ (by decide))]
    congr 1
    apply Bool.eq_iff_iff.mpr
    simp only [beq_iff_eq]
    omega
  · -- another byte: unchanged
    have hne : index ≠ other := fun heq => hbyte (heq ▸ rfl)
    cases hx : bytes[other / 8]? with
    | none => simp [hne]
    | some x => simp [hbyte, hne]

end Bitmap
