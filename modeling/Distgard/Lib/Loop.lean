import Mathlib.Order.Basic

/-!
# While loops with a measure

A loop is a step function `step : σ → Option σ`: `some s'` goes round once more from
`s'`, and `none` leaves the loop. `exec` runs it to the end, for a step that makes a
natural measure decrease, so that the loop is a total function of its start.

`exec_induct` is the rule the proofs use: what the start satisfies and every round
preserves holds of the state in which the loop stops, and no round is possible there.
`exec_rel` compares two loops round by round.

A loop that may go round forever is a relation: `Ends step k s t` says that it stops in `t`
after `k` rounds from `s`. `Ends.unique` says that it does so in one way only, and
`ends_of_measure` that it does so at all where a measure decreases under an invariant.
-/

namespace Distgard.Lib.Loop

variable {σ : Type*} {step : σ → Option σ} {μ : σ → ℕ}

/-- Every round of the loop makes the measure smaller. -/
def Decreases (step : σ → Option σ) (μ : σ → ℕ) : Prop := ∀ s s', step s = some s' → μ s' < μ s

/-- The state in which the loop started in `s` stops. -/
def exec (step : σ → Option σ) (μ : σ → ℕ) (h : Decreases step μ) (s : σ) : σ :=
  match _hs : step s with
  | none => s
  | some s' => exec step μ h s'
termination_by μ s
decreasing_by exact h s s' _hs

theorem exec_of_none (h : Decreases step μ) {s : σ} (hs : step s = none) : exec step μ h s = s := by
  rw [exec]
  split
  · rfl
  · next hs' => rw [hs] at hs'; cases hs'

theorem exec_of_some (h : Decreases step μ) {s s' : σ} (hs : step s = some s') :
    exec step μ h s = exec step μ h s' := by
  rw [exec]
  split
  · next hs' => rw [hs] at hs'; cases hs'
  · next hs' => rw [hs] at hs'; cases hs'; rfl

/-- **The invariant rule**: a property of the start that every round preserves holds
where the loop stops, and there the loop can go no further. -/
theorem exec_induct (h : Decreases step μ) {I : σ → Prop}
    (hI : ∀ s s', I s → step s = some s' → I s') {s : σ} (hs : I s) :
    I (exec step μ h s) ∧ step (exec step μ h s) = none := by
  induction hn : μ s using Nat.strongRecOn generalizing s with
  | _ n ih =>
    subst hn
    cases hst : step s with
    | none => rw [exec_of_none h hst]; exact ⟨hs, hst⟩
    | some s' =>
      rw [exec_of_some h hst]
      exact ih (μ s') (h s s' hst) (hI s s' hs hst) rfl

/-- **The relational rule**: two loops that go round together, from related states to related
states, stop in related states. -/
theorem exec_rel {τ : Type*} {step' : τ → Option τ} {μ' : τ → ℕ} (h : Decreases step μ) (h' : Decreases step' μ')
    {R : σ → τ → Prop} (hnone : ∀ s t, R s t → step s = none → step' t = none)
    (hsome : ∀ s t s', R s t → step s = some s' → ∃ t', step' t = some t' ∧ R s' t') {s : σ} {t : τ} (hR : R s t) :
    R (exec step μ h s) (exec step' μ' h' t) := by
  induction hn : μ s using Nat.strongRecOn generalizing s t with
  | _ n ih =>
    subst hn
    cases hst : step s with
    | none => rw [exec_of_none h hst, exec_of_none h' (hnone s t hR hst)]; exact hR
    | some s' =>
      obtain ⟨t', ht, hR'⟩ := hsome s t s' hR hst
      rw [exec_of_some h hst, exec_of_some h' ht]
      exact ih (μ s') (h s s' hst) hR' rfl

/-! ### Loops that may go round forever -/

/-- The loop stops in a state after so many rounds. -/
inductive Ends (step : σ → Option σ) : ℕ → σ → σ → Prop
  /-- The loop stops where it is. -/
  | stop {s : σ} : step s = none → Ends step 0 s s
  /-- The loop goes round once more. -/
  | round {s s' t : σ} {k : ℕ} : step s = some s' → Ends step k s' t → Ends step (k + 1) s t

/-- A loop stops in one state and after one number of rounds, if it stops. -/
theorem Ends.unique {k k' : ℕ} {s t t' : σ} (h : Ends step k s t) (h' : Ends step k' s t') : k = k' ∧ t = t' := by
  induction h generalizing k' with
  | stop hs =>
    cases h' with
    | stop _ => exact ⟨rfl, rfl⟩
    | round hs' _ =>
      rw [hs] at hs'
      cases hs'
  | round hs _ ih =>
    cases h' with
    | stop hs' =>
      rw [hs] at hs'
      cases hs'
    | round hs' hrest =>
      rw [hs] at hs'
      cases hs'
      obtain ⟨rfl, rfl⟩ := ih hrest
      exact ⟨rfl, rfl⟩

/-- **The invariant rule** for such loops. -/
theorem Ends.induct {I : σ → Prop} {k : ℕ} {s t : σ} (h : Ends step k s t)
    (hI : ∀ s s', I s → step s = some s' → I s') (hs : I s) : I t := by
  induction h with
  | stop _ => exact hs
  | round hstep _ ih => exact ih (hI _ _ hs hstep)

/-- A loop with a measure stops where it is run to. -/
theorem exec_ends (h : Decreases step μ) (s : σ) : ∃ k, Ends step k s (exec step μ h s) := by
  induction hn : μ s using Nat.strongRecOn generalizing s with
  | _ n ih =>
    subst hn
    cases hst : step s with
    | none =>
      rw [exec_of_none h hst]
      exact ⟨0, .stop hst⟩
    | some s' =>
      rw [exec_of_some h hst]
      obtain ⟨k, hk⟩ := ih (μ s') (h s s' hst) s' rfl
      exact ⟨k + 1, .round hst hk⟩

/-- **The termination rule**: a loop that keeps an invariant, under which every round makes a
measure smaller, stops with the invariant. -/
theorem ends_of_measure (step : σ → Option σ) {I : σ → Prop} (μ : σ → ℕ)
    (hI : ∀ s s', I s → step s = some s' → I s' ∧ μ s' < μ s) {s : σ}
    (hs : I s) : ∃ k t, Ends step k s t ∧ I t ∧ step t = none := by
  induction hn : μ s using Nat.strongRecOn generalizing s with
  | _ n ih =>
    subst hn
    cases hst : step s with
    | none => exact ⟨0, s, .stop hst, hs, hst⟩
    | some s' =>
      obtain ⟨hs', hlt⟩ := hI s s' hs hst
      obtain ⟨k, t, hk, ht⟩ := ih (μ s') hlt hs' rfl
      exact ⟨k + 1, t, .round hst hk, ht⟩

/-- **The relational rule** for such loops: a loop that goes round together with one that stops
stops, too, in a related state. -/
theorem Ends.rel {τ : Type*} {step' : τ → Option τ} {R : σ → τ → Prop}
    (hnone : ∀ s t, R s t → step s = none → step' t = none)
    (hsome : ∀ s t s', R s t → step s = some s' → ∃ t', step' t = some t' ∧ R s' t') {k : ℕ} {s s' : σ} {t : τ}
    (h : Ends step k s s') (hR : R s t) : ∃ t', Ends step' k t t' ∧ R s' t' := by
  induction h generalizing t with
  | stop hs => exact ⟨t, .stop (hnone _ t hR hs), hR⟩
  | round hs _ ih =>
    obtain ⟨t₁, ht, hR₁⟩ := hsome _ t _ hR hs
    obtain ⟨t', ht', hR'⟩ := ih hR₁
    exact ⟨t', .round ht ht', hR'⟩

/-- A loop that comes back to where it was does not stop. -/
theorem Ends.ne_of_step {k : ℕ} {s s' t : σ} (h : Ends step k s t) (hs : step s = some s') : s' ≠ s := by
  rintro rfl
  cases h with
  | stop hs' =>
    rw [hs] at hs'
    cases hs'
  | round hs' hrest =>
    rw [hs] at hs'
    cases hs'
    have hk := (hrest.unique (.round hs hrest)).1
    omega

end Distgard.Lib.Loop
