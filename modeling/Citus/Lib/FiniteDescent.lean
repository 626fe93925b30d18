import Mathlib

/-!
# Termination by descent through a finite set of measures

A loop whose every step lowers a measure in a strict order cannot run forever
when the measures it can reach form a finite set: some measure would repeat,
and transitivity would make it smaller than itself. This is how one proves that
a greedy improvement loop over a finite configuration space stops, even when the
order on measures, such as the Dershowitz–Manna order on multisets of rationals,
is not well-founded on its whole type.

For multisets over a linear order the Dershowitz–Manna order is a strict order,
and replacing two elements by two that both lie below the first is a descent.
-/

namespace FiniteDescent

open Multiset

section DershowitzManna

variable {α : Type*} [LinearOrder α]

/-- No multiset lies below itself: the replaced part would have to be dominated by
itself, and its largest element by a larger one. -/
theorem isDershowitzMannaLT_irrefl (M : Multiset α) : ¬ IsDershowitzMannaLT M M := by
  rintro ⟨X, Y, Z, hZ, hM, hN, hYZ⟩
  obtain rfl : Y = Z := add_left_cancel (hM.symm.trans hN)
  have hne : Y.toFinset.Nonempty := by
    rw [Multiset.toFinset_nonempty]
    exact hZ
  obtain ⟨z, hz, hmax⟩ := Y.toFinset.exists_max_image id hne
  obtain ⟨w, hw, hlt⟩ := hYZ z (Multiset.mem_toFinset.mp hz)
  exact absurd (hmax w (Multiset.mem_toFinset.mpr hw)) (not_le_of_gt hlt)

instance isStrictOrder_isDershowitzMannaLT : IsStrictOrder (Multiset α) IsDershowitzMannaLT where
  irrefl := isDershowitzMannaLT_irrefl
  trans _ _ _ := IsDershowitzMannaLT.trans

/-- Replacing `a` and `b` by two elements below `a` is a descent. -/
theorem isDershowitzMannaLT_replace_two (X : Multiset α) {a b a' b' : α} (ha : a' < a)
    (hb : b' < a) : IsDershowitzMannaLT (X + {a', b'}) (X + {a, b}) := by
  refine ⟨X, {a', b'}, {a, b}, by simp, rfl, rfl, fun y hy => ⟨a, by simp, ?_⟩⟩
  rcases Multiset.mem_cons.mp hy with rfl | hy
  · exact ha
  · rw [Multiset.mem_singleton.mp hy]
    exact hb

end DershowitzManna

section FiniteMultisets

variable {α : Type*} [DecidableEq α]

/-- The multisets of at most `n` elements of a finite set form a finite set: each
lies below `n` copies of the set. -/
theorem finite_multisets_of_card_le {E : Set α} (hE : E.Finite) (n : ℕ) :
    {M : Multiset α | Multiset.card M ≤ n ∧ ∀ x ∈ M, x ∈ E}.Finite := by
  refine ((n • hE.toFinset.val).powerset.toFinset.finite_toSet).subset ?_
  rintro M ⟨hcard, hmem⟩
  rw [Finset.mem_coe, Multiset.mem_toFinset, Multiset.mem_powerset, Multiset.le_iff_count]
  intro x
  by_cases hx : x ∈ M
  · have hxE : x ∈ hE.toFinset.val := hE.mem_toFinset.mpr (hmem x hx)
    rw [Multiset.count_nsmul, Multiset.count_eq_one_of_mem hE.toFinset.nodup hxE, mul_one]
    exact (Multiset.count_le_card x M).trans hcard
  · rw [Multiset.count_eq_zero_of_notMem hx]
    exact Nat.zero_le _

end FiniteMultisets

section Descent

variable {σ κ : Type*} {r : κ → κ → Prop} [IsStrictOrder κ r]

/-- Every state satisfying an invariant that the steps keep is accessible for the
converse step relation when each step lowers a measure in a strict order and the
measures of such states lie in a finite set. -/
theorem acc_of_finite_descent {K : Set κ} (hK : K.Finite) (step : σ → σ → Prop)
    {Inv : σ → Prop} (μ : σ → κ) (hmem : ∀ s, Inv s → μ s ∈ K)
    (hpres : ∀ s s', Inv s → step s s' → Inv s')
    (hdesc : ∀ s s', Inv s → step s s' → r (μ s') (μ s)) :
    ∀ s, Inv s → Acc (fun s' s => Inv s ∧ step s s') s := by
  intro s hs
  obtain ⟨k, hk⟩ : ∃ k : K, k.1 = μ s := ⟨⟨μ s, hmem s hs⟩, rfl⟩
  have hacc := (hK.wellFoundedOn (r := r)).apply k
  -- the induction is on the measure, inside the finite set `K`
  induction hacc generalizing s with
  | intro k _ ih =>
      refine Acc.intro s fun s' hstep => ?_
      have hs' := hpres s s' hs hstep.2
      have hlt : r (μ s') k.1 := by
        rw [hk]
        exact hdesc s s' hs hstep.2
      exact ih ⟨μ s', hmem s' hs'⟩ hlt s' hs' rfl

end Descent

end FiniteDescent
