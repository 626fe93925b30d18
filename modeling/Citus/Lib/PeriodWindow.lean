import Mathlib

/-!
# Lazily rolled period windows

A statistic kept per period in two slots, the current period's and the last one's, is
rolled over lazily: only when the statistic is next touched, possibly several periods
later. A rollover moves the current slot into the last one and empties it, or empties the
last slot, or both (`rollover`).

When the slots hold the totals `T p0` and `T (p0 - 1)` of the periods around the time of
the last touch, and nothing was recorded after period `pq`, the rollover at a later time in
period `p1` gives the totals around `p1` exactly when it moves iff a period started since
the last record and the current slot still holds that record's period, and empties the last
slot iff two or more periods started since (`rollover_window`).
-/

namespace PeriodWindow

variable {M : Type*} [Zero M]

/-- One lazy rollover of the slots `(this period, last period)`. -/
def rollover (window : M × M) (move clear : Bool) : M × M :=
  (if move then 0 else window.1, if clear then 0 else if move then window.1 else window.2)

@[simp]
theorem rollover_zero (move clear : Bool) : rollover ((0, 0) : M × M) move clear = (0, 0) := by
  cases move <;> cases clear <;> rfl

/-- A rollover at a time in period `p1` of the slots of periods `p0` and `p0 - 1`, when the last
record was in period `pq`, gives the slots of `p1` and `p1 - 1`. -/
theorem rollover_window (T : ℤ → M) {pq p0 p1 : ℤ} (hp0 : pq ≤ p0) (hp1 : p0 ≤ p1)
    (hafter : ∀ p, pq < p → T p = 0) {move clear : Bool}
    (hmove : move = true ↔ pq < p1 ∧ p0 = pq) (hclear : clear = true ↔ pq + 2 ≤ p1) :
    rollover (T p0, T (p0 - 1)) move clear = (T p1, T (p1 - 1)) := by
  unfold rollover
  cases move <;> cases clear <;> simp only [Bool.false_eq_true, true_iff, false_iff, not_and,
    if_true, if_false] at hmove hclear ⊢
  case false.false =>
    -- without a move or a clear no period started since the last touch
    have hsame : p0 = p1 := by
      by_contra hne
      have := hmove (by omega)
      omega
    rw [hsame]
  case false.true =>
    have hcurrent : T p0 = T p1 := by
      by_cases hsame : p0 = p1
      · rw [hsame]
      · have hnew : pq < p0 := by
          by_contra hold
          exact hmove (by omega) (by omega)
        rw [hafter p0 hnew, hafter p1 (by omega)]
    rw [hcurrent, hafter (p1 - 1) (by omega)]
  case true.false =>
    obtain ⟨hstarted, hlast⟩ := hmove
    have hnext : p1 - 1 = p0 := by omega
    rw [hafter p1 hstarted, hnext]
  case true.true =>
    rw [hafter p1 hmove.1, hafter (p1 - 1) (by omega)]

end PeriodWindow
