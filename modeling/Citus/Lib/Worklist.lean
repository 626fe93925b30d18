import Mathlib

/-!
# Draining a worklist on fuel

A worklist loop takes the first pending item out of its state, processes it
(processing may queue new items) and repeats until nothing is pending. The loop
runs on explicit fuel, one unit per processed item.

Two rules carry the proofs about such a loop: an invariant kept by every step
holds when the loop stops (`drain_invariant`), and a measure that every step
lowers bounds the fuel after which nothing is left pending (`next_drain_eq_none`).
-/

namespace Worklist

variable {σ ι : Type*}

/-- Process pending items until `next` finds none or the fuel is spent. `next`
returns the first pending item together with the state it was taken out of. -/
def drain (next : σ → Option (ι × σ)) (step : ι → σ → σ) : Nat → σ → σ
  | 0, s => s
  | fuel + 1, s =>
    match next s with
    | none => s
    | some (item, rest) => drain next step fuel (step item rest)

variable {next : σ → Option (ι × σ)} {step : ι → σ → σ}

@[simp] theorem drain_zero (s : σ) : drain next step 0 s = s := rfl

theorem drain_succ_of_next_eq_none {s : σ} (h : next s = none) (fuel : Nat) :
    drain next step (fuel + 1) s = s := by
  simp [drain, h]

theorem drain_succ_of_next_eq_some {s rest : σ} {item : ι} (h : next s = some (item, rest))
    (fuel : Nat) : drain next step (fuel + 1) s = drain next step fuel (step item rest) := by
  simp [drain, h]

/-- An invariant that every step keeps holds when the loop stops. -/
theorem drain_invariant (Inv : σ → Prop)
    (hstep : ∀ s item rest, Inv s → next s = some (item, rest) → Inv (step item rest)) :
    ∀ fuel s, Inv s → Inv (drain next step fuel s) := by
  intro fuel
  induction fuel with
  | zero => exact fun s hs => hs
  | succ fuel ih =>
    intro s hs
    cases hnext : next s with
    | none =>
      rw [drain_succ_of_next_eq_none hnext]
      exact hs
    | some p =>
      obtain ⟨item, rest⟩ := p
      rw [drain_succ_of_next_eq_some hnext]
      exact ih _ (hstep s item rest hs hnext)

/-- If every step keeps an invariant and lowers a measure, fuel above the
measure leaves nothing pending. -/
theorem next_drain_eq_none (Inv : σ → Prop) (measure : σ → Nat)
    (hstep : ∀ s item rest, Inv s → next s = some (item, rest) →
      Inv (step item rest) ∧ measure (step item rest) < measure s) :
    ∀ fuel s, Inv s → measure s < fuel → next (drain next step fuel s) = none := by
  intro fuel
  induction fuel with
  | zero => exact fun s _ hlt => absurd hlt (Nat.not_lt_zero _)
  | succ fuel ih =>
    intro s hs hlt
    cases hnext : next s with
    | none =>
      rw [drain_succ_of_next_eq_none hnext]
      exact hnext
    | some p =>
      obtain ⟨item, rest⟩ := p
      obtain ⟨hinv, hdec⟩ := hstep s item rest hs hnext
      rw [drain_succ_of_next_eq_some hnext]
      exact ih _ hinv (by omega)

end Worklist
