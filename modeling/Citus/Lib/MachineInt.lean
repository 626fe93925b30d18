import Mathlib

/-!
# Two's-complement conversions as integer arithmetic

C code mixes `int32`, `int64` and `uint64` operands; the usual arithmetic
conversions then compute in `uint64` and the result is truncated when it is
stored back into an `int32`. Both steps are reductions of a mathematical integer:
modulo `2 ^ 64` for the unsigned type, and modulo `2 ^ 32` into `[-2 ^ 31, 2 ^ 31)`
for the signed one. The lemmas say when a reduction changes nothing and that the
32-bit truncation does not see the 64-bit one.

A signed `int64` operation that leaves its range is undefined in C; what the
compiled code computes is the truncation modulo `2 ^ 64` into `[-2 ^ 63, 2 ^ 63)`
(`toInt64`), and `InInt64` says when no truncation happens.
-/

namespace MachineInt

/-- The smallest `int32` value. -/
def int32Min : Int := -2 ^ 31

/-- The largest `int32` value. -/
def int32Max : Int := 2 ^ 31 - 1

/-- Conversion of an integer to `uint64`: reduction modulo `2 ^ 64`. -/
def toUInt64 (x : Int) : Int := x % 2 ^ 64

/-- Conversion of an integer to `int32`: reduction modulo `2 ^ 32` into
`[int32Min, int32Max]`, as the two's-complement truncation does. -/
def toInt32 (x : Int) : Int := (x + 2 ^ 31) % 2 ^ 32 - 2 ^ 31

/-- The interval of `int32` values. -/
def InInt32 (x : Int) : Prop := int32Min ≤ x ∧ x ≤ int32Max

instance (x : Int) : Decidable (InInt32 x) := inferInstanceAs (Decidable (_ ∧ _))

theorem inInt32_int32Max : InInt32 int32Max := by
  unfold InInt32 int32Min int32Max
  omega

theorem toInt32_inInt32 (x : Int) : InInt32 (toInt32 x) := by
  unfold InInt32 toInt32 int32Min int32Max
  omega

/-- A value that already fits is not changed by the truncation. -/
@[simp] theorem toInt32_of_inInt32 {x : Int} (h : InInt32 x) : toInt32 x = x := by
  unfold InInt32 int32Min int32Max at h
  unfold toInt32
  omega

/-- Truncating to `int32` after reducing modulo `2 ^ 64` is truncating directly,
since `2 ^ 32` divides `2 ^ 64`. -/
@[simp] theorem toInt32_toUInt64 (x : Int) : toInt32 (toUInt64 x) = toInt32 x := by
  unfold toInt32 toUInt64
  omega

/-- Truncation only depends on the value modulo `2 ^ 32`. -/
theorem toInt32_add_mul (x k : Int) : toInt32 (x + k * 2 ^ 32) = toInt32 x := by
  unfold toInt32
  omega

/-- The smallest `int64` value. -/
def int64Min : Int := -2 ^ 63

/-- The largest `int64` value. -/
def int64Max : Int := 2 ^ 63 - 1

/-- Two's-complement truncation of an integer to `int64`. -/
def toInt64 (x : Int) : Int := (x + 2 ^ 63) % 2 ^ 64 - 2 ^ 63

/-- The interval of `int64` values. -/
def InInt64 (x : Int) : Prop := int64Min ≤ x ∧ x ≤ int64Max

instance (x : Int) : Decidable (InInt64 x) := inferInstanceAs (Decidable (_ ∧ _))

theorem toInt64_inInt64 (x : Int) : InInt64 (toInt64 x) := by
  unfold InInt64 toInt64 int64Min int64Max
  omega

/-- A value that already fits is not changed by the truncation. -/
@[simp] theorem toInt64_of_inInt64 {x : Int} (h : InInt64 x) : toInt64 x = x := by
  unfold InInt64 int64Min int64Max at h
  unfold toInt64
  omega

/-- Truncation only depends on the value modulo `2 ^ 64`. -/
theorem toInt64_add_mul (x k : Int) : toInt64 (x + k * 2 ^ 64) = toInt64 x := by
  unfold toInt64
  omega

end MachineInt
