import Mathlib

/-!
# Tilings of an integer range

Ranges `[a, b]` of integers tile `[lo, hi]` when they are non-empty, the first
starts at `lo`, each next one starts just after the previous one ends, and the last
ends at `hi`. Such ranges lie inside `[lo, hi]` (`Tiles.mem_bounds`), are strictly
increasing (`Tiles.pairwise_lt`) and so pairwise distinct (`Tiles.nodup`), and each
point of `[lo, hi]` lies in exactly one of them (`Tiles.exists_mem`,
`Tiles.eq_of_mem`).
-/

namespace Tiling

/-- `ranges`, in order, are non-empty and contiguous from `lo` on and end at `hi`.
No range tiles exactly the empty range `[hi + 1, hi]`. -/
def Tiles : Int → Int → List (Int × Int) → Prop
  | lo, hi, [] => lo = hi + 1
  | lo, hi, r :: rest => r.1 = lo ∧ r.1 ≤ r.2 ∧ Tiles (r.2 + 1) hi rest

instance decTiles : (lo hi : Int) → (ranges : List (Int × Int)) →
    Decidable (Tiles lo hi ranges)
  | lo, hi, [] => inferInstanceAs (Decidable (lo = hi + 1))
  | lo, hi, r :: rest =>
      have := decTiles (r.2 + 1) hi rest
      inferInstanceAs (Decidable (r.1 = lo ∧ r.1 ≤ r.2 ∧ Tiles (r.2 + 1) hi rest))

@[simp] theorem tiles_nil {lo hi : Int} : Tiles lo hi [] ↔ lo = hi + 1 := Iff.rfl

@[simp] theorem tiles_cons {lo hi : Int} {r : Int × Int} {rest : List (Int × Int)} :
    Tiles lo hi (r :: rest) ↔ r.1 = lo ∧ r.1 ≤ r.2 ∧ Tiles (r.2 + 1) hi rest := Iff.rfl

/-- A tiled range is empty or has its bounds in order. -/
theorem Tiles.le_succ : ∀ {lo hi : Int} {ranges : List (Int × Int)},
    Tiles lo hi ranges → lo ≤ hi + 1
  | _, _, [], h => Int.le_of_eq h
  | _, _, _ :: _, ⟨hstart, hle, hrest⟩ => by
      have := Tiles.le_succ hrest
      omega

/-- Every range of a tiling of `[lo, hi]` is a non-empty part of it. -/
theorem Tiles.mem_bounds : ∀ {lo hi : Int} {ranges : List (Int × Int)},
    Tiles lo hi ranges → ∀ r ∈ ranges, lo ≤ r.1 ∧ r.1 ≤ r.2 ∧ r.2 ≤ hi
  | _, _, [], _ => by simp
  | lo, hi, s :: rest, ⟨hstart, hle, hrest⟩ => by
      intro r hr
      rcases List.mem_cons.mp hr with rfl | hr
      · have := Tiles.le_succ hrest
        omega
      · have := Tiles.mem_bounds hrest r hr
        omega

/-- The ranges of a tiling are strictly increasing. -/
theorem Tiles.pairwise_lt : ∀ {lo hi : Int} {ranges : List (Int × Int)},
    Tiles lo hi ranges → ranges.Pairwise fun r s => r.2 < s.1
  | _, _, [], _ => List.Pairwise.nil
  | _, _, r :: rest, ⟨_, _, hrest⟩ => by
      apply List.Pairwise.cons
      · intro s hs
        have := Tiles.mem_bounds hrest s hs
        omega
      · exact Tiles.pairwise_lt hrest

theorem Tiles.nodup {lo hi : Int} {ranges : List (Int × Int)} (h : Tiles lo hi ranges) :
    ranges.Nodup := by
  apply (Tiles.pairwise_lt h).imp_of_mem
  intro r s hr _ hlt heq
  have := (Tiles.mem_bounds h r hr).2.1
  rw [heq] at hlt this
  omega

/-- Each point of a tiled range lies in one of the ranges. -/
theorem Tiles.exists_mem : ∀ {lo hi : Int} {ranges : List (Int × Int)},
    Tiles lo hi ranges → ∀ {x : Int}, lo ≤ x → x ≤ hi → ∃ r ∈ ranges, r.1 ≤ x ∧ x ≤ r.2
  | _, _, [], h, _, hlo, hhi => by
      simp only [tiles_nil] at h
      omega
  | _, _, r :: rest, ⟨hstart, _, hrest⟩, x, hlo, hhi => by
      by_cases hin : x ≤ r.2
      · exact ⟨r, List.mem_cons_self, by omega, hin⟩
      · obtain ⟨s, hs, hx⟩ := Tiles.exists_mem hrest (by omega) hhi
        exact ⟨s, List.mem_cons_of_mem r hs, hx⟩

/-- Two ranges of a tiling that share a point are the same range. -/
theorem Tiles.eq_of_mem : ∀ {lo hi : Int} {ranges : List (Int × Int)}, Tiles lo hi ranges →
    ∀ {r s : Int × Int}, r ∈ ranges → s ∈ ranges →
      ∀ {x : Int}, r.1 ≤ x ∧ x ≤ r.2 → s.1 ≤ x ∧ x ≤ s.2 → r = s
  | _, _, [], _, _, _, hr, _, _, _, _ => by simp at hr
  | _, _, t :: rest, ⟨_, _, hrest⟩, r, s, hr, hs, x, hxr, hxs => by
      have hafter : ∀ u ∈ rest, t.2 < u.1 := fun u hu => by
        have := Tiles.mem_bounds hrest u hu
        omega
      rcases List.mem_cons.mp hr with rfl | hrRest <;>
        rcases List.mem_cons.mp hs with rfl | hsRest
      · rfl
      · have := hafter s hsRest
        omega
      · have := hafter r hrRest
        omega
      · exact Tiles.eq_of_mem hrest hrRest hsRest hxr hxs

end Tiling
