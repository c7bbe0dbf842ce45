import Mathlib.Order.Nat

/-!
# Waves

A wave starts at a cell and spreads, one step at a time, to the cells next to it. It
leaves a cell only if the cell lets it pass, and only while it is alive: `alive k` says
that it still spreads after `k` steps. `Reach k x` says that the wave reaches `x` by some
walk of `k` steps, and `Arrive k x` that `k` is the least such number, so that `x` is at
distance `k` along the cells that let the wave pass.

`Reach.congr` is the locality of a wave: worlds that agree on the cells which the wave
leaves have the same wave. `arrive_iff` compares a wave with one that never dies, whose arrivals
are the distances of cells: a wave arrives where it is still alive one step before.
-/

namespace Distgard.Lib.Wave

variable {V : Type*} (adj : V → V → Prop) (alive : ℕ → Prop)

/-- The wave from `o` reaches a cell by a walk of `k` steps, through cells that let it pass. -/
inductive Reach (pass : V → Prop) (o : V) : ℕ → V → Prop
  /-- The wave starts at `o`. -/
  | start : Reach pass o 0 o
  /-- From a cell that lets it pass, a wave that is alive goes on to the cells next to it. -/
  | step {k : ℕ} {y x : V} : Reach pass o k y → pass y → alive k → adj y x → Reach pass o (k + 1) x

/-- The wave arrives at a cell after `k` steps, and not earlier. -/
def Arrive (pass : V → Prop) (o : V) (k : ℕ) (x : V) : Prop :=
  Reach adj alive pass o k x ∧ ∀ j, Reach adj alive pass o j x → k ≤ j

variable {adj alive} {pass pass' : V → Prop} {o x : V} {k : ℕ}

theorem Arrive.reach (h : Arrive adj alive pass o k x) : Reach adj alive pass o k x := h.1

/-- A wave arrives at a cell once. -/
theorem Arrive.unique {j : ℕ} (h : Arrive adj alive pass o k x) (h' : Arrive adj alive pass o j x) : k = j :=
  le_antisymm (h.2 j h'.1) (h'.2 k h.1)

/-- A cell that the wave reaches is one at which it arrives. -/
theorem Reach.exists_arrive (h : Reach adj alive pass o k x) : ∃ j ≤ k, Arrive adj alive pass o j x := by
  induction k using Nat.strongRecOn with
  | _ k ih =>
    by_cases hmin : ∀ j, Reach adj alive pass o j x → k ≤ j
    · exact ⟨k, le_rfl, h, hmin⟩
    · obtain ⟨j, hj, hlt⟩ : ∃ j, Reach adj alive pass o j x ∧ j < k := by
        by_contra hc
        exact hmin fun j hj => not_lt.mp fun hlt => hc ⟨j, hj, hlt⟩
      obtain ⟨i, hi, harr⟩ := ih j hlt hj
      exact ⟨i, hi.trans hlt.le, harr⟩

/-- At its start a wave arrives after no steps, and nowhere else. -/
theorem arrive_zero_iff : Arrive adj alive pass o 0 x ↔ x = o := by
  constructor
  · rintro ⟨h, -⟩
    cases h
    rfl
  · rintro rfl
    exact ⟨.start, fun j _ => Nat.zero_le j⟩

/-- A wave comes no farther than it has steps, however far is measured, if no step leads farther
than one on. -/
theorem Reach.rank_le (rank : V → ℕ) (hstart : rank o = 0) (hadj : ∀ y x, adj y x → rank x ≤ rank y + 1)
    (h : Reach adj alive pass o k x) : rank x ≤ k := by
  induction h with
  | start => exact hstart.le
  | step _ _ _ hnext ih => exact (hadj _ _ hnext).trans (Nat.succ_le_succ ih)

/-- Where the worlds agree on every cell which the first wave leaves, what the first wave
reaches the second reaches too. -/
theorem Reach.of_agree (hp : ∀ k y, Reach adj alive pass o k y → alive k → pass y → pass' y)
    (h : Reach adj alive pass o k x) : Reach adj alive pass' o k x := by
  induction h with
  | start => exact .start
  | step hr hpass ha hadj ih => exact .step ih (hp _ _ hr ha hpass) ha hadj

/-- **Locality**: changing cells which the wave does not leave, either way, changes nothing. -/
theorem Reach.congr (hp : ∀ k y, Reach adj alive pass o k y → alive k → (pass y ↔ pass' y)) :
    Reach adj alive pass o k x ↔ Reach adj alive pass' o k x := by
  refine ⟨Reach.of_agree fun k y hr ha => (hp k y hr ha).mp, ?_⟩
  intro h
  induction h with
  | start => exact .start
  | step _ hpass ha hadj ih => exact .step ih ((hp _ _ ih ha).mpr hpass) ha hadj

theorem Arrive.congr (hp : ∀ k y, Reach adj alive pass o k y → alive k → (pass y ↔ pass' y)) :
    Arrive adj alive pass o k x ↔ Arrive adj alive pass' o k x := by
  have hr : ∀ j, Reach adj alive pass o j x ↔ Reach adj alive pass' o j x := fun j => Reach.congr hp
  simp only [Arrive, hr]

/-! ### Waves that die and waves that do not -/

/-- A wave that dies reaches what one that does not reaches, with so many steps as it has. -/
theorem reach_iff (hanti : ∀ j k, j ≤ k → alive k → alive j) :
    Reach adj alive pass o k x ↔ Reach adj (fun _ => True) pass o k x ∧ (k = 0 ∨ alive (k - 1)) := by
  constructor
  · intro h
    induction h with
    | start => exact ⟨.start, .inl rfl⟩
    | step _ hpass ha hadj ih => exact ⟨.step ih.1 hpass trivial hadj, .inr ha⟩
  · rintro ⟨h, hlast⟩
    induction h with
    | start => exact .start
    | @step k y x _ hpass _ hadj ih =>
      have ha : alive k := hlast.resolve_left (Nat.succ_ne_zero k)
      exact .step (ih (.inr (hanti _ _ (Nat.sub_le k 1) ha))) hpass ha hadj

/-- **Distances**: a wave that dies arrives in a cell at the cell's distance, if it is still
alive one step before it. -/
theorem arrive_iff (hanti : ∀ j k, j ≤ k → alive k → alive j) :
    Arrive adj alive pass o k x ↔ Arrive adj (fun _ => True) pass o k x ∧ (k = 0 ∨ alive (k - 1)) := by
  constructor
  · rintro ⟨hr, hmin⟩
    obtain ⟨hr', hlast⟩ := (reach_iff hanti).mp hr
    refine ⟨⟨hr', fun j hj => ?_⟩, hlast⟩
    by_contra hlt
    -- a shorter walk would be one on which the wave lives
    have hlast' : j = 0 ∨ alive (j - 1) := .inr (hanti _ _ (by omega) (hlast.resolve_left (by omega)))
    exact hlt (hmin j ((reach_iff hanti).mpr ⟨hj, hlast'⟩))
  · rintro ⟨⟨hr, hmin⟩, hlast⟩
    exact ⟨(reach_iff hanti).mpr ⟨hr, hlast⟩, fun j hj => hmin j ((reach_iff hanti).mp hj).1⟩

end Distgard.Lib.Wave
