import Mathlib

/-!
# Three-way bisection over an index range

A bisection loop keeps a half-open window `[lo, hi)`, probes its midpoint and
either stops there, keeps the left half or keeps the right half. When the
window becomes empty the loop reports where it ended.

The probe is monotone when its `left` answers are closed upward and its `right`
answers closed downward. Under that condition a stop at `k` splits the range
into a prefix of `right` answers and a suffix of `left` answers, so nothing
before `lo` or after `hi` can hold a `found` index that the loop skipped.
-/

namespace Bisection

/-- What one probe decides about the index it looks at. -/
inductive Probe
  | left
  | found
  | right
  deriving DecidableEq, Repr

/-- How a bisection ends: at a probed index, or with an empty window. -/
inductive Outcome
  | found (index : Nat)
  | exhausted (index : Nat)
  deriving DecidableEq, Repr

/-- The midpoint of `[lo, hi)` as `lo + (hi - lo) / 2`. -/
def midpoint (lo hi : Nat) : Nat := lo + (hi - lo) / 2

theorem midpoint_lt {lo hi : Nat} (h : lo < hi) : midpoint lo hi < hi := by
  unfold midpoint
  omega

theorem le_midpoint (lo hi : Nat) : lo ≤ midpoint lo hi := by
  unfold midpoint
  omega

/-- For `lo ≤ hi` the midpoint `(lo + hi) / 2` is the same index. -/
theorem midpoint_eq_add_div {lo hi : Nat} (h : lo ≤ hi) :
    midpoint lo hi = (lo + hi) / 2 := by
  unfold midpoint
  omega

/-- The bisection loop over `[lo, hi)`. -/
def search (probe : Nat → Probe) (lo hi : Nat) : Outcome :=
  if lo < hi then
    match probe (midpoint lo hi) with
    | .left => search probe lo (midpoint lo hi)
    | .found => .found (midpoint lo hi)
    | .right => search probe (midpoint lo hi + 1) hi
  else .exhausted lo
termination_by hi - lo
decreasing_by
  all_goals unfold midpoint; omega

/-- `left` answers are closed upward and `right` answers closed downward
on the indices below `n`. -/
structure Monotone (probe : Nat → Probe) (n : Nat) : Prop where
  left_up : ∀ {i j}, i ≤ j → j < n → probe i = .left → probe j = .left
  right_down : ∀ {i j}, i ≤ j → j < n → probe j = .right → probe i = .right

/-- A `found` outcome names a probed index of the window that answered `found`. -/
theorem search_found {probe : Nat → Probe} {lo hi m : Nat}
    (h : search probe lo hi = .found m) : lo ≤ m ∧ m < hi ∧ probe m = .found := by
  fun_induction search probe lo hi with
  | case1 lo hi hlt hp ih =>
      obtain ⟨h₁, h₂, h₃⟩ := ih h
      exact ⟨h₁, Nat.lt_trans h₂ (midpoint_lt hlt), h₃⟩
  | case2 lo hi hlt hp =>
      cases h
      exact ⟨le_midpoint lo hi, midpoint_lt hlt, hp⟩
  | case3 lo hi hlt hp ih =>
      obtain ⟨h₁, h₂, h₃⟩ := ih h
      exact ⟨by have := le_midpoint lo hi; omega, h₂, h₃⟩
  | case4 lo hi hge => cases h

/-- An exhausted window ends inside the range it started from. -/
theorem search_exhausted_bounds {probe : Nat → Probe} {lo hi k : Nat} (hle : lo ≤ hi)
    (h : search probe lo hi = .exhausted k) : lo ≤ k ∧ k ≤ hi := by
  fun_induction search probe lo hi with
  | case1 lo hi hlt hp ih =>
      have := midpoint_lt hlt
      have := ih (le_midpoint lo hi) h
      omega
  | case2 lo hi hlt hp => cases h
  | case3 lo hi hlt hp ih =>
      have := midpoint_lt hlt
      have := le_midpoint lo hi
      have := ih (by omega) h
      omega
  | case4 lo hi hge =>
      cases h
      omega

/-- The invariant of the loop: when the window `[lo, hi)` is exhausted at `k`, every
index of `[lo, k)` answered `right` and every index of `[k, hi)` answered `left`. -/
theorem search_exhausted_split {probe : Nat → Probe} {n lo hi k : Nat}
    (hmono : Monotone probe n) (hhi : hi ≤ n) (hle : lo ≤ hi)
    (h : search probe lo hi = .exhausted k) :
    (∀ i, lo ≤ i → i < k → probe i = .right) ∧
      (∀ i, k ≤ i → i < hi → probe i = .left) := by
  fun_induction search probe lo hi with
  | case1 lo hi hlt hp ih =>
      -- the left half keeps the split; the probe's `left` covers `[mid, hi)`
      have hmid := midpoint_lt hlt
      obtain ⟨hright, hleft⟩ := ih (by omega) (le_midpoint lo hi) h
      refine ⟨hright, fun i hki hi' => ?_⟩
      by_cases hlt' : i < midpoint lo hi
      · exact hleft i hki hlt'
      · exact hmono.left_up (by omega) (by omega) hp
  | case2 lo hi hlt hp => cases h
  | case3 lo hi hlt hp ih =>
      -- the right half keeps the split; the probe's `right` covers `[lo, mid]`
      have hmid := midpoint_lt hlt
      obtain ⟨hright, hleft⟩ := ih hhi (by omega) h
      refine ⟨fun i hli hik => ?_, hleft⟩
      by_cases hle' : i ≤ midpoint lo hi
      · exact hmono.right_down hle' (by omega) hp
      · exact hright i (by omega) hik
  | case4 lo hi hge =>
      cases h
      refine ⟨fun i h₁ h₂ => by omega, fun i h₁ h₂ => by omega⟩

/-- On a monotone probe an index answering `found` is never skipped. -/
theorem search_isFound_of_found {probe : Nat → Probe} {n i : Nat}
    (hmono : Monotone probe n) (hi : i < n) (hfound : probe i = .found) :
    ∃ m, search probe 0 n = .found m := by
  cases hs : search probe 0 n with
  | found m => exact ⟨m, rfl⟩
  | exhausted k =>
      obtain ⟨hright, hleft⟩ :=
        search_exhausted_split hmono (Nat.le_refl n) (Nat.zero_le n) hs
      by_cases hik : i < k
      · simp [hright i (Nat.zero_le i) hik] at hfound
      · simp [hleft i (by omega) hi] at hfound

section Window

variable {γ : Type*}

/-- A filter whose predicate holds exactly on the indices of `[lo, hi)` keeps the
window `(l.take hi).drop lo` of the list. -/
theorem filter_eq_drop_take {l : List γ} {r : γ → Bool} {lo hi : Nat}
    (hbelow : ∀ i (h : i < l.length), i < lo → r l[i] = false)
    (habove : ∀ i (h : i < l.length), hi ≤ i → r l[i] = false)
    (hwithin : ∀ i (h : i < l.length), lo ≤ i → i < hi → r l[i] = true) :
    l.filter r = (l.take hi).drop lo := by
  induction l generalizing lo hi with
  | nil => simp
  | cons a t ih =>
      cases hi with
      | zero =>
          -- the window is empty
          rw [List.take_zero, List.drop_nil, List.filter_eq_nil_iff]
          intro x hx hrx
          obtain ⟨i, hi', rfl⟩ := List.getElem_of_mem hx
          simp [habove i hi' (Nat.zero_le i)] at hrx
      | succ hi =>
          cases lo with
          | zero =>
              have ha : r a = true := hwithin 0 (by simp) (Nat.le_refl 0) (Nat.succ_pos hi)
              rw [List.filter_cons_of_pos ha, List.take_succ_cons, List.drop_zero,
                @ih 0 hi (fun i _ h => absurd h (Nat.not_lt_zero i))
                  (fun i h hle => habove (i + 1) (by simpa using h) (by omega))
                  (fun i h _ hlt => hwithin (i + 1) (by simpa using h) (by omega) (by omega)),
                List.drop_zero]
          | succ lo =>
              have ha : r a = false := hbelow 0 (by simp) (Nat.succ_pos lo)
              rw [List.filter_cons_of_neg (by simp [ha]), List.take_succ_cons, List.drop_succ_cons]
              exact @ih lo hi (fun i h hlt => hbelow (i + 1) (by simpa using h) (by omega))
                (fun i h hle => habove (i + 1) (by simpa using h) (by omega))
                (fun i h hle hlt => hwithin (i + 1) (by simpa using h) (by omega) (by omega))

end Window

end Bisection
