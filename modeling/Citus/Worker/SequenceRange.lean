import Citus.Lib.MachineInt

/-!
# The value ranges of distributed sequences on the node groups

`AlterSequenceMinMax` (`worker_data_fetch_protocol.c`) gives the copy of a bigint
sequence on a node of group `g` the range that starts at `(g << 48) + 1`, so that
nodes of different groups hand out different values. Its header promises that a
group never hands out a value above `(g + 1) << 48`; the code sets `maxvalue` to
`startValue + (1 << 48)`, one past that bound. PostgreSQL's `maxvalue` is
inclusive, so the last value of group `g` is the first value of group `g + 1`
(`alterSequenceMinMax_ranges_overlap`). For group ids from `2 ^ 15` on, the shift
and the addition leave the `int64` range.

## Implementation notes

* `int64` arithmetic is integer arithmetic followed by the two's-complement
  truncation `MachineInt.toInt64`: a signed overflow is undefined in C, and the
  truncation is what the compiled code computes.
* PostgreSQL's side is modelled as far as the function reaches it: `setval`,
  `ALTER SEQUENCE` with `START`, `MINVALUE`, `MAXVALUE` and `RESTART` and the
  range checks of `init_params`, and `nextval` of a sequence with increment 1 and
  no `CYCLE`.
-/

namespace Citus.Worker

open MachineInt

/-- The type of a sequence, as far as `AlterSequenceMinMax` tells types apart. -/
inductive SequenceTypeId
  | int8Oid
  | int4Oid
  | int2Oid
  deriving DecidableEq, Repr

/-- The fields of `Form_pg_sequence` that `AlterSequenceMinMax` reads. -/
structure FormPgSequence where
  seqmin : Int
  seqmax : Int
  deriving DecidableEq, Repr

/-- The command `AlterSequenceMinMax` runs on the sequence, if any. -/
inductive SequenceCommand
  | setval (value : Int)
  | alterSequence (start minvalue maxvalue restart : Int)
  | noCommand
  deriving DecidableEq, Repr

/-- `valueBitLength`: the group id is shifted above the low 48 bits. -/
def valueBitLength : Nat := 48

/-- `AlterSequenceMinMax` on a node of group `localGroupId`. -/
def alterSequenceMinMax (localGroupId : Int) (sequenceTypeId : SequenceTypeId)
    (sequenceData : FormPgSequence) : SequenceCommand :=
  let sequenceMaxValue := sequenceData.seqmax
  let sequenceMinValue := sequenceData.seqmin
  -- int and smallint sequences are only moved to their end, so that nextval fails
  if sequenceTypeId ≠ .int8Oid then .setval sequenceMaxValue
  else
    let startValue := toInt64 (toInt64 (localGroupId * 2 ^ valueBitLength) + 1)
    let maxValue := toInt64 (startValue + 2 ^ valueBitLength)
    if sequenceMinValue ≠ startValue ∨ sequenceMaxValue ≠ maxValue then
      .alterSequence startValue startValue maxValue startValue
    else .noCommand

/-! ## PostgreSQL's sequences -/

/-- A sequence with increment 1 and no `CYCLE`: its range and its position. -/
structure SequenceState where
  minValue : Int
  maxValue : Int
  lastValue : Int
  isCalled : Bool
  deriving DecidableEq, Repr

/-- `ALTER SEQUENCE ... START start MINVALUE minvalue MAXVALUE maxvalue RESTART
restart`, with the checks of `init_params`. -/
def alterSequence (start minvalue maxvalue restart : Int) : Except String SequenceState :=
  if maxvalue ≤ minvalue then
    .error s!"MINVALUE ({minvalue}) must be less than MAXVALUE ({maxvalue})"
  else if start < minvalue then
    .error s!"START value ({start}) cannot be less than MINVALUE ({minvalue})"
  else if maxvalue < start then
    .error s!"START value ({start}) cannot be greater than MAXVALUE ({maxvalue})"
  else if restart < minvalue then
    .error s!"RESTART value ({restart}) cannot be less than MINVALUE ({minvalue})"
  else if maxvalue < restart then
    .error s!"RESTART value ({restart}) cannot be greater than MAXVALUE ({maxvalue})"
  else .ok ⟨minvalue, maxvalue, restart, false⟩

/-- `setval(sequence, value)`. -/
def setval (sequenceName : String) (seq : SequenceState) (value : Int) :
    Except String SequenceState :=
  if value < seq.minValue ∨ seq.maxValue < value then
    .error s!"setval: value {value} is out of bounds for sequence \"{sequenceName}\""
  else .ok { seq with lastValue := value, isCalled := true }

/-- Run the command `AlterSequenceMinMax` chose on the sequence. -/
def applySequenceCommand (sequenceName : String) (seq : SequenceState) :
    SequenceCommand → Except String SequenceState
  | .setval value => setval sequenceName seq value
  | .alterSequence start minvalue maxvalue restart => alterSequence start minvalue maxvalue restart
  | .noCommand => .ok seq

/-- `nextval(sequence)`. -/
def nextval (sequenceName : String) (seq : SequenceState) : Except String (Int × SequenceState) :=
  let maxValue := seq.maxValue
  if !seq.isCalled then .ok (seq.lastValue, { seq with isCalled := true })
  else if maxValue < seq.lastValue + 1 then
    .error s!"nextval: reached maximum value of sequence \"{sequenceName}\" ({maxValue})"
  else .ok (seq.lastValue + 1, { seq with lastValue := seq.lastValue + 1 })

/-- The values of `count` successive calls of `nextval`. -/
def nextvalRun (sequenceName : String) : Nat → SequenceState → Except String (List Int)
  | 0, _ => .ok []
  | count + 1, seq => do
      let (value, seq') ← nextval sequenceName seq
      let values ← nextvalRun sequenceName count seq'
      pure (value :: values)

/-- A bigint sequence as `CREATE SEQUENCE` makes it: the range `[1, 2 ^ 63 - 1]`,
before its first value. -/
def createdSequence : SequenceState := ⟨1, int64Max, 1, false⟩

/-! ## The ranges of the groups -/

/-- Below group `2 ^ 15 - 1` nothing overflows: group `g` gets the range
`[g * 2 ^ 48 + 1, (g + 1) * 2 ^ 48 + 1]` unless it already has it. -/
theorem alterSequenceMinMax_eq {localGroupId : Int} (hlow : 0 ≤ localGroupId)
    (hhigh : localGroupId + 1 < 2 ^ 15) (sequenceData : FormPgSequence)
    (hchanged : sequenceData.seqmin ≠ localGroupId * 2 ^ 48 + 1 ∨
      sequenceData.seqmax ≠ (localGroupId + 1) * 2 ^ 48 + 1) :
    alterSequenceMinMax localGroupId .int8Oid sequenceData =
      .alterSequence (localGroupId * 2 ^ 48 + 1) (localGroupId * 2 ^ 48 + 1)
        ((localGroupId + 1) * 2 ^ 48 + 1) (localGroupId * 2 ^ 48 + 1) := by
  have hshift : InInt64 (localGroupId * 2 ^ 48) := by
    unfold InInt64 int64Min int64Max
    omega
  have hstart : InInt64 (localGroupId * 2 ^ 48 + 1) := by
    unfold InInt64 int64Min int64Max
    omega
  have hmax : InInt64 ((localGroupId + 1) * 2 ^ 48 + 1) := by
    unfold InInt64 int64Min int64Max
    omega
  have hsum : localGroupId * 2 ^ 48 + 1 + 2 ^ 48 = (localGroupId + 1) * 2 ^ 48 + 1 := by ring
  simp only [alterSequenceMinMax, valueBitLength, ne_eq, not_true_eq_false, if_false,
    toInt64_of_inInt64 hshift, toInt64_of_inInt64 hstart, hsum, toInt64_of_inInt64 hmax]
  rw [if_pos hchanged]

/-- The `ALTER SEQUENCE` of `AlterSequenceMinMax` on a non-empty range restarts the
sequence at its minimum. -/
theorem alterSequence_restart {start maxvalue : Int} (hlt : start < maxvalue) :
    alterSequence start start maxvalue start = .ok ⟨start, maxvalue, start, false⟩ := by
  simp only [alterSequence, lt_irrefl, if_false]
  rw [if_neg (not_le.mpr hlt), if_neg (not_lt.mpr hlt.le), if_neg (not_lt.mpr hlt.le)]

/-- The values `start, start + 1, ...` split into the first and the rest. -/
theorem map_range_succ_add (start : Int) (count : Nat) :
    (List.range (count + 1)).map (fun (k : Nat) => start + (k : Int)) =
      start :: (List.range count).map fun (k : Nat) => start + 1 + (k : Int) := by
  rw [List.range_succ_eq_map, List.map_cons, List.map_map]
  congr 1
  · simp
  · apply List.map_congr_left
    intro k _
    simp only [Function.comp_apply, Nat.cast_succ]
    ring

/-- After its first value, a sequence counts up from `lastValue`, as long as the
values stay within the range. -/
theorem nextvalRun_of_called (sequenceName : String) :
    ∀ (count : Nat) (seq : SequenceState), seq.isCalled = true →
      seq.lastValue + count ≤ seq.maxValue →
      nextvalRun sequenceName count seq =
        .ok ((List.range count).map fun (k : Nat) => seq.lastValue + 1 + (k : Int))
  | 0, _, _, _ => rfl
  | count + 1, seq, hcalled, hfits => by
      have hnext : nextval sequenceName seq =
          .ok (seq.lastValue + 1, { seq with lastValue := seq.lastValue + 1 }) := by
        simp only [nextval, hcalled, Bool.not_true, Bool.false_eq_true, if_false]
        rw [if_neg (by omega)]
      have hrest := nextvalRun_of_called sequenceName count
        { seq with lastValue := seq.lastValue + 1 } hcalled (by simp only; omega)
      rw [map_range_succ_add]
      simp only [nextvalRun, hnext, hrest, bind, Except.bind, pure, Except.pure]

/-- A restarted sequence hands out `restart` first and counts up from there. -/
theorem nextvalRun_of_restarted (sequenceName : String) (count : Nat) (seq : SequenceState)
    (hcalled : seq.isCalled = false) (hfits : seq.lastValue + count ≤ seq.maxValue + 1) :
    nextvalRun sequenceName count seq =
      .ok ((List.range count).map fun (k : Nat) => seq.lastValue + (k : Int)) := by
  cases count with
  | zero => rfl
  | succ count =>
      have hnext : nextval sequenceName seq = .ok (seq.lastValue, { seq with isCalled := true }) := by
        simp only [nextval, hcalled, Bool.not_false, if_true]
      have hrest := nextvalRun_of_called sequenceName count { seq with isCalled := true } rfl
        (by simp only; omega)
      rw [map_range_succ_add]
      simp only [nextvalRun, hnext, hrest, bind, Except.bind, pure, Except.pure]

/-- The ranges of adjacent groups share their boundary value, and for large group
ids the ranges leave `[1, 2 ^ 63 - 1]`: from a freshly created bigint sequence,
the nodes of groups `g` and `g + 1` both hand out `(g + 1) * 2 ^ 48 + 1` (the
`2 ^ 48 + 1`-th value of the one, the first of the other); group `2 ^ 15` gets a
range of negative values without an error; group `2 ^ 16` gets the range of
group 0. -/
theorem alterSequenceMinMax_ranges_overlap (sequenceName : String) :
    (∀ g : Int, 0 ≤ g → g + 2 < 2 ^ 15 →
      ∃ seq seq' : SequenceState,
        applySequenceCommand sequenceName createdSequence
            (alterSequenceMinMax g .int8Oid ⟨1, int64Max⟩) = .ok seq ∧
        applySequenceCommand sequenceName createdSequence
            (alterSequenceMinMax (g + 1) .int8Oid ⟨1, int64Max⟩) = .ok seq' ∧
        seq.maxValue = seq'.minValue ∧
        (nextvalRun sequenceName (2 ^ 48 + 1) seq).map List.getLast? =
          .ok (some ((g + 1) * 2 ^ 48 + 1)) ∧
        nextvalRun sequenceName 1 seq' = .ok [(g + 1) * 2 ^ 48 + 1]) ∧
    (∃ seq : SequenceState,
      applySequenceCommand sequenceName createdSequence
          (alterSequenceMinMax (2 ^ 15) .int8Oid ⟨1, int64Max⟩) = .ok seq ∧
        seq.maxValue < 1) ∧
    alterSequenceMinMax (2 ^ 16) .int8Oid ⟨1, int64Max⟩ =
      alterSequenceMinMax 0 .int8Oid ⟨1, int64Max⟩ := by
  refine ⟨?adjacent, ?negative, ?wrapped⟩
  case adjacent =>
    intro g hlow hhigh
    have hcmd := alterSequenceMinMax_eq hlow (by omega) ⟨1, int64Max⟩
      (Or.inr (by simp only [int64Max]; omega))
    have hlowNext : 0 ≤ g + 1 := by omega
    have hcmd' := alterSequenceMinMax_eq hlowNext (by omega) ⟨1, int64Max⟩
      (Or.inr (by simp only [int64Max]; omega))
    refine ⟨⟨g * 2 ^ 48 + 1, (g + 1) * 2 ^ 48 + 1, g * 2 ^ 48 + 1, false⟩,
      ⟨(g + 1) * 2 ^ 48 + 1, (g + 1 + 1) * 2 ^ 48 + 1, (g + 1) * 2 ^ 48 + 1, false⟩,
      ?_, ?_, rfl, ?_, ?_⟩
    · rw [hcmd]
      exact alterSequence_restart (by omega)
    · rw [hcmd']
      exact alterSequence_restart (by omega)
    · -- the group's last value, after `2 ^ 48` values before it
      rw [nextvalRun_of_restarted sequenceName _ _ rfl (by simp only; omega)]
      simp only [Except.map, List.getLast?_map, List.getLast?_range]
      norm_num
      ring
    · rw [nextvalRun_of_restarted sequenceName _ _ rfl (by simp only; omega)]
      simp
  case negative =>
    exact ⟨⟨-2 ^ 63 + 1, -2 ^ 63 + 1 + 2 ^ 48, -2 ^ 63 + 1, false⟩, rfl, by decide⟩
  case wrapped => decide

end Citus.Worker
