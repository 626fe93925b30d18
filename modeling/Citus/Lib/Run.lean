import Mathlib

/-!
# Runs of a partial step function

A component that reacts to events is a step function `σ → ε → Option σ`, where
`none` says the event is not enabled in the state. A run applies a list of events
in order and fails at the first one that is not enabled (`List.foldlM` in
`Option`). Any interleaving of the component's parties is one such list.

The states runs reach from an initial state are `Reachable`; `Reachable.invariant`
is the induction rule: what holds initially and is kept by every enabled step
holds of every reachable state, and so after every run (`foldlM_invariant`), or after
every run of events of one kind (`foldlM_invariant_of_good`) or of events each enabled in
the state it meets (`foldlM_invariant_of_enabledRun`).
Where an invariant bounds a quantity that each step may move by one, it is indexed
by the number of steps taken, and holds after runs of events of one kind that are
no longer than the bound allows (`foldlM_indexed_invariant`). Runs of a total step
function (`List.foldl`) and of one that fails with an error (`List.foldlM` in `Except`)
have their own rules (`foldl_invariant`, `foldlM_except_invariant`,
`foldlM_except_cons_eq_ok`); a run in `Except` that succeeded ends in a state every
successful step keeps an invariant of (`foldlM_except_invariant_of_ok`), and a run that
meets an event failing from every such state does not succeed
(`foldlM_except_ne_ok_of_mem`). A composite step in `Except` that succeeded is taken
apart with `except_bind_eq_ok` and `except_map_eq_ok`.
-/

namespace EventRun

variable {σ ε : Type*} (step : σ → ε → Option σ)

/-- The states that runs of enabled events reach from `init`. -/
inductive Reachable (init : σ) : σ → Prop
  | init : Reachable init init
  | step {s s' : σ} (event : ε) : Reachable init s → step s event = some s' → Reachable init s'

variable {step}

theorem Reachable.trans {init s s' : σ} (h : Reachable step init s)
    (h' : Reachable step s s') : Reachable step init s' := by
  induction h' with
  | init => exact h
  | step event _ hstep ih => exact .step event ih hstep

/-- Every state a run ends in is reachable. -/
theorem reachable_of_foldlM {init s : σ} :
    ∀ {events : List ε}, events.foldlM step init = some s → Reachable step init s := by
  intro events
  induction events generalizing init with
  | nil =>
      intro h
      cases h
      exact .init
  | cons event rest ih =>
      intro h
      obtain ⟨mid, hmid, hrest⟩ : ∃ mid, step init event = some mid ∧
          rest.foldlM step mid = some s := by
        simpa [List.foldlM_cons, Option.bind_eq_some_iff] using h
      exact (Reachable.step event .init hmid).trans (ih hrest)

/-- The induction rule for reachable states. -/
theorem Reachable.invariant (Inv : σ → Prop) {init : σ} (hinit : Inv init)
    (hstep : ∀ s event s', Inv s → step s event = some s' → Inv s') {s : σ}
    (h : Reachable step init s) : Inv s := by
  induction h with
  | init => exact hinit
  | step event _ hs ih => exact hstep _ event _ ih hs

/-- An invariant kept by every enabled step holds after every run. -/
theorem foldlM_invariant (Inv : σ → Prop) {init s : σ} (hinit : Inv init)
    (hstep : ∀ s event s', Inv s → step s event = some s' → Inv s') {events : List ε}
    (h : events.foldlM step init = some s) : Inv s :=
  (reachable_of_foldlM h).invariant Inv hinit hstep

/-- The induction rule for runs of events satisfying `Good`: an invariant kept by every
enabled step on such an event holds after every such run. -/
theorem foldlM_invariant_of_good (Inv : σ → Prop) (Good : ε → Prop) {init s : σ}
    (hinit : Inv init) (hstep : ∀ s event s', Good event → Inv s → step s event = some s' → Inv s') :
    ∀ {events : List ε}, (∀ event ∈ events, Good event) → events.foldlM step init = some s →
      Inv s := by
  intro events
  induction events generalizing init with
  | nil =>
      intro _ h
      cases h
      exact hinit
  | cons event rest ih =>
      intro hgood h
      obtain ⟨mid, hmid, hrest⟩ : ∃ mid, step init event = some mid ∧
          rest.foldlM step mid = some s := by
        simpa [List.foldlM_cons, Option.bind_eq_some_iff] using h
      exact ih (hstep init event mid (hgood event List.mem_cons_self) hinit hmid)
        (fun event' hmem => hgood event' (List.mem_cons_of_mem event hmem)) hrest

/-- Every event of the run is enabled, by `Enabled`, in the state it meets. -/
def enabledRun (step : σ → ε → Option σ) (Enabled : σ → ε → Bool) : σ → List ε → Bool
  | _, [] => true
  | s, event :: events =>
      Enabled s event &&
        match step s event with
        | some s' => enabledRun step Enabled s' events
        | none => true

/-- The induction rule for runs whose every event is enabled in the state it meets: an
invariant kept by every enabled step holds after the run. -/
theorem foldlM_invariant_of_enabledRun (Inv : σ → Prop) (Enabled : σ → ε → Bool)
    (hstep : ∀ s event s', Enabled s event = true → Inv s → step s event = some s' → Inv s') :
    ∀ {events : List ε} {init s : σ}, Inv init → enabledRun step Enabled init events = true →
      events.foldlM step init = some s → Inv s := by
  intro events
  induction events with
  | nil =>
      intro init s hinit _ h
      cases h
      exact hinit
  | cons event rest ih =>
      intro init s hinit henabled h
      obtain ⟨mid, hmid, hrest⟩ : ∃ mid, step init event = some mid ∧
          rest.foldlM step mid = some s := by
        simpa [List.foldlM_cons, Option.bind_eq_some_iff] using h
      simp only [enabledRun, hmid, Bool.and_eq_true] at henabled
      exact ih (hstep init event mid henabled.1 hinit hmid) henabled.2 hrest

/-- The induction rule for invariants indexed by the number of steps taken, over runs
of events satisfying `Good` of length at most `bound`. -/
theorem foldlM_indexed_invariant (Inv : ℕ → σ → Prop) (Good : ε → Prop) (bound : ℕ)
    (hstep : ∀ k s event s', k < bound → Inv k s → Good event → step s event = some s' →
      Inv (k + 1) s') :
    ∀ {events : List ε} {k : ℕ} {init s : σ}, Inv k init → k + events.length ≤ bound →
      (∀ event ∈ events, Good event) → events.foldlM step init = some s →
      Inv (k + events.length) s := by
  intro events
  induction events with
  | nil =>
      intro k init s hinit _ _ h
      cases h
      exact hinit
  | cons event rest ih =>
      intro k init s hinit hlength hgood h
      obtain ⟨mid, hmid, hrest⟩ : ∃ mid, step init event = some mid ∧
          rest.foldlM step mid = some s := by
        simpa [List.foldlM_cons, Option.bind_eq_some_iff] using h
      have hinv : Inv (k + 1) mid := hstep k init event mid (by simp at hlength; omega) hinit
        (hgood event (by simp)) hmid
      have hrun := ih hinv (by simp at hlength; omega)
        (fun event hmem => hgood event (by simp [hmem])) hrest
      simpa [Nat.add_assoc, Nat.add_comm 1] using hrun

/-- The induction rule for a run of a total step function (`List.foldl`): what holds
initially and is kept by every step on an event of the run holds at its end. -/
theorem foldl_invariant {f : σ → ε → σ} (Inv : σ → Prop) :
    ∀ {events : List ε} {init : σ}, Inv init →
      (∀ s, ∀ event ∈ events, Inv s → Inv (f s event)) → Inv (events.foldl f init) := by
  intro events
  induction events with
  | nil =>
      intro init hinit _
      exact hinit
  | cons event rest ih =>
      intro init hinit hstep
      apply ih (hstep init event List.mem_cons_self hinit)
      intro s event' hmem hs
      exact hstep s event' (List.mem_cons_of_mem event hmem) hs

/-- The induction rule for a run of a step function that may fail (`List.foldlM` in
`Except`): when every step on an event of the run from a state satisfying `Inv`
succeeds with a state satisfying `Inv`, the run succeeds and ends in one. -/
theorem foldlM_except_invariant {δ : Type*} {f : σ → ε → Except δ σ} (Inv : σ → Prop) :
    ∀ {events : List ε} {init : σ}, Inv init →
      (∀ s, ∀ event ∈ events, Inv s → ∃ s', f s event = .ok s' ∧ Inv s') →
      ∃ s, events.foldlM f init = .ok s ∧ Inv s := by
  intro events
  induction events with
  | nil =>
      intro init hinit _
      exact ⟨init, rfl, hinit⟩
  | cons event rest ih =>
      intro init hinit hstep
      obtain ⟨mid, hmid, hinv⟩ := hstep init event List.mem_cons_self hinit
      obtain ⟨s, hrest, hs⟩ := ih hinv fun s event' hmem hs =>
        hstep s event' (List.mem_cons_of_mem event hmem) hs
      refine ⟨s, ?_, hs⟩
      rw [List.foldlM_cons, hmid]
      exact hrest

/-- A bind in `Except` that succeeded ran its first computation to a value. -/
theorem except_bind_eq_ok {δ α β : Type _} {x : Except δ α} {f : α → Except δ β} {b : β}
    (h : (x >>= f) = .ok b) : ∃ a, x = .ok a ∧ f a = .ok b := by
  cases x with
  | error e => cases h
  | ok a => exact ⟨a, rfl, h⟩

/-- A map in `Except` that succeeded maps a value. -/
theorem except_map_eq_ok {δ α β : Type _} {x : Except δ α} {g : α → β} {b : β}
    (h : (g <$> x) = .ok b) : ∃ a, x = .ok a ∧ g a = b := by
  cases x with
  | error e => cases h
  | ok a =>
      cases h
      exact ⟨a, rfl, rfl⟩

/-- A run of a step function that may fail and that succeeded took its first step. -/
theorem foldlM_except_cons_eq_ok {δ : Type*} {f : σ → ε → Except δ σ} {event : ε}
    {rest : List ε} {init s : σ} (h : (event :: rest).foldlM f init = .ok s) :
    ∃ mid, f init event = .ok mid ∧ rest.foldlM f mid = .ok s := by
  rw [List.foldlM_cons] at h
  cases hstep : f init event with
  | error e =>
      rw [hstep] at h
      cases h
  | ok mid =>
      rw [hstep] at h
      exact ⟨mid, rfl, h⟩

/-- A run of a step function that may fail, which succeeded, ends in a state
satisfying every invariant its successful steps keep. -/
theorem foldlM_except_invariant_of_ok {δ : Type*} {f : σ → ε → Except δ σ} (Inv : σ → Prop)
    (hstep : ∀ s event s', Inv s → f s event = .ok s' → Inv s') :
    ∀ {events : List ε} {init s : σ}, Inv init → events.foldlM f init = .ok s → Inv s := by
  intro events
  induction events with
  | nil =>
      intro init s hinit h
      cases h
      exact hinit
  | cons event rest ih =>
      intro init s hinit h
      obtain ⟨mid, hmid, hrest⟩ := foldlM_except_cons_eq_ok h
      exact ih (hstep init event mid hinit hmid) hrest

/-- A run that meets an event which fails from every state satisfying an invariant
kept by the successful steps does not succeed. -/
theorem foldlM_except_ne_ok_of_mem {δ : Type*} {f : σ → ε → Except δ σ} (Inv : σ → Prop)
    (hstep : ∀ s event s', Inv s → f s event = .ok s' → Inv s') {event : ε}
    (hfail : ∀ s s', Inv s → f s event ≠ .ok s') :
    ∀ {events : List ε} {init : σ}, event ∈ events → Inv init →
      ∀ s, events.foldlM f init ≠ .ok s := by
  intro events
  induction events with
  | nil =>
      intro init hmem
      cases hmem
  | cons head rest ih =>
      intro init hmem hinit s h
      obtain ⟨mid, hmid, hrest⟩ := foldlM_except_cons_eq_ok h
      rcases List.mem_cons.mp hmem with rfl | hmem
      · exact hfail init mid hinit hmid
      · exact ih hmem (hstep init head mid hinit hmid) s hrest

end EventRun
