import Mathlib

/-!
# Tables kept as lists, under updates

A catalog table or a shared hash modelled as a list changes in two ways: a new row is
appended, or the row at a position is replaced. The invariants over such tables say that
a key is unique, or that a sum or a count over the rows equals some other quantity. The
lemmas here say how the two updates move each of them: an appended row with a fresh key
keeps the keys distinct (`nodup_map_append_singleton`), and a replaced row moves a sum
and a count by the difference between the old row and the new
(`sum_map_set_add`, `countP_set_add`).
-/

namespace ListUpdate

variable {α β : Type*}

/-- A row whose key no row of the table has keeps the keys distinct. -/
theorem nodup_map_append_singleton {f : α → β} {l : List α} {a : α}
    (hnodup : (l.map f).Nodup) (hfresh : ∀ x ∈ l, f x ≠ f a) : ((l ++ [a]).map f).Nodup := by
  rw [List.map_append, List.map_singleton, ← List.concat_eq_append]
  refine hnodup.concat fun hmem => ?_
  obtain ⟨x, hx, hkey⟩ := List.mem_map.mp hmem
  exact hfresh x hx hkey

/-- Replacing row `a` by row `b` moves the sum of `f` over the table by `f b - f a`. -/
theorem sum_map_set_add (f : α → ℕ) (b : α) :
    ∀ {l : List α} {i : ℕ} {a : α}, l[i]? = some a →
      ((l.set i b).map f).sum + f a = (l.map f).sum + f b
  | _ :: _, 0, _, h => by
      simp only [List.getElem?_cons_zero, Option.some.injEq] at h
      subst h
      simp only [List.set_cons_zero, List.map_cons, List.sum_cons]
      omega
  | _ :: _, _ + 1, _, h => by
      simp only [List.getElem?_cons_succ] at h
      have ih := sum_map_set_add f b h
      simp only [List.set_cons_succ, List.map_cons, List.sum_cons]
      omega

/-- Replacing row `a` by a row that `p` does not count lowers the count by one if `p`
counted `a`. -/
theorem countP_set_add {p : α → Bool} {l : List α} {i : Nat} {a b : α}
    (h : l[i]? = some a) (hb : p b = false) :
    (l.set i b).countP p + (if p a = true then 1 else 0) = l.countP p := by
  obtain ⟨hlt, hget⟩ := List.getElem?_eq_some_iff.mp h
  rw [List.countP_set hlt, hget, hb]
  have hle : (if p a = true then 1 else 0) ≤ l.countP p := by
    split_ifs with hpa
    · exact List.countP_pos_iff.mpr ⟨a, List.mem_of_getElem? h, hpa⟩
    · exact Nat.zero_le _
  simp only [Bool.false_eq_true, if_false, add_zero]
  omega

end ListUpdate
