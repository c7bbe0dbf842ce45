import Distgard.Lib.Loop
import Mathlib.Algebra.BigOperators.Group.Finset.Basic
import Mathlib.Algebra.Order.BigOperators.Group.Finset
import Mathlib.Data.Set.Finite.Basic

/-!
# Flood fill

A flood fills a cell and goes on to the neighbors that hold something, over a graph given by
the list of neighbors of each cell. The loop keeps a stack of cells still to be filled, on which
a cell may stand more than once; a cell that is filled when it is popped is passed over.

`Flooded` says which cells the flood reaches. `flood_ends` says that where finitely many cells
hold something, the loop ends, and has filled these cells. The measure pays for a cell and all
its neighbors when it is filled.
-/

namespace Distgard.Lib.Flood

variable {V : Type*} [DecidableEq V] (nbrs : V → List V) (holds : V → Bool)

/-- The cells reached from the first one through cells that hold something. -/
inductive Flooded (o : V) : V → Prop
  /-- The first cell, whatever it holds. -/
  | start : Flooded o o
  /-- From a cell that is reached, the neighbors that hold something. -/
  | step {y x : V} : Flooded o y → x ∈ nbrs y → holds x = true → Flooded o x

/-- Put the neighbors that hold something and are not filled on the stack. -/
def push (filled : Finset V) (l : List V) (stack : List V) : List V :=
  l.foldl (fun stack x => if holds x = true ∧ x ∉ filled then x :: stack else stack) stack

/-- One round: fill the cell popped from the stack, unless it is filled. -/
def round : List V × Finset V → Option (List V × Finset V)
  | ([], _) => none
  | (v :: stack, filled) =>
    if v ∈ filled then some (stack, filled) else some (push holds (insert v filled) (nbrs v) stack, insert v filled)

variable {nbrs holds}

omit [DecidableEq V] in
/-- What is reached is the first cell, or holds something. -/
theorem Flooded.eq_or_holds {o x : V} (h : Flooded nbrs holds o x) : x = o ∨ holds x = true := by
  cases h with
  | start => exact .inl rfl
  | step _ _ hx => exact .inr hx

theorem mem_push {filled : Finset V} {l stack : List V} {x : V} :
    x ∈ push holds filled l stack ↔ x ∈ stack ∨ x ∈ l ∧ holds x = true ∧ x ∉ filled := by
  induction l generalizing stack with
  | nil => simp [push]
  | cons y l ih =>
    rw [push, List.foldl_cons, ← push, ih, List.mem_cons]
    split
    · next hy =>
      rw [List.mem_cons]
      constructor
      · rintro ((rfl | hx) | ⟨hx, hh⟩)
        · exact .inr ⟨.inl rfl, hy⟩
        · exact .inl hx
        · exact .inr ⟨.inr hx, hh⟩
      · rintro (hx | ⟨rfl | hx, hh⟩)
        · exact .inl (.inr hx)
        · exact .inl (.inl rfl)
        · exact .inr ⟨hx, hh⟩
    · next hy =>
      apply or_congr_right
      constructor
      · rintro ⟨hx, hh⟩
        exact ⟨.inr hx, hh⟩
      · rintro ⟨rfl | hx, hh⟩
        · exact absurd hh hy
        · exact ⟨hx, hh⟩

/-- A round pushes at most all neighbors. -/
theorem length_push (holds : V → Bool) (filled : Finset V) (l stack : List V) :
    (push holds filled l stack).length ≤ stack.length + l.length := by
  induction l generalizing stack with
  | nil => exact Nat.le_refl _
  | cons y l ih =>
    rw [push, List.foldl_cons, ← push]
    refine Nat.le_trans (ih _) ?_
    split
    · simp only [List.length_cons]
      omega
    · simp only [List.length_cons]
      omega

/-- What holds in every round. -/
structure Inv (nbrs : V → List V) (holds : V → Bool) (o : V) (s : List V × Finset V) : Prop where
  /-- The cells on the stack are reached. -/
  stack : ∀ x ∈ s.1, Flooded nbrs holds o x
  /-- The cells filled are reached. -/
  filled : ∀ x ∈ s.2, Flooded nbrs holds o x
  /-- The first cell is filled, or will be. -/
  start : o ∈ s.2 ∨ o ∈ s.1
  /-- The neighbors of a filled cell that hold something are filled, or will be. -/
  closed : ∀ y ∈ s.2, ∀ x ∈ nbrs y, holds x = true → x ∈ s.2 ∨ x ∈ s.1

theorem Inv.step {o : V} {s s' : List V × Finset V} (h : Inv nbrs holds o s) (hs : round nbrs holds s = some s') :
    Inv nbrs holds o s' := by
  obtain ⟨stack, filled⟩ := s
  cases stack with
  | nil => cases hs
  | cons v stack =>
    obtain ⟨hv, hstack⟩ := List.forall_mem_cons.mp h.stack
    rw [round] at hs
    split at hs
    · next hfilled =>
      cases hs
      -- the cell is filled already, so that nothing is lost with it
      have hpop : ∀ x, x ∈ filled ∨ x ∈ v :: stack → x ∈ filled ∨ x ∈ stack := by
        rintro x (hx | hx)
        · exact .inl hx
        · rcases List.mem_cons.mp hx with rfl | hx
          · exact .inl hfilled
          · exact .inr hx
      exact ⟨hstack, h.filled, hpop o h.start, fun y hy x hx hh => hpop x (h.closed y hy x hx hh)⟩
    · next hfilled =>
      cases hs
      have hpop : ∀ x, x ∈ filled ∨ x ∈ v :: stack →
          x ∈ insert v filled ∨ x ∈ push holds (insert v filled) (nbrs v) stack := by
        rintro x (hx | hx)
        · exact .inl (Finset.mem_insert_of_mem hx)
        · rcases List.mem_cons.mp hx with rfl | hx
          · exact .inl (Finset.mem_insert_self _ _)
          · exact .inr (mem_push.mpr (.inl hx))
      refine ⟨?_, ?_, hpop o h.start, ?_⟩
      · intro x hx
        rcases mem_push.mp hx with hx | ⟨hx, hh, -⟩
        · exact hstack x hx
        · exact .step hv hx hh
      · intro x hx
        rcases Finset.mem_insert.mp hx with rfl | hx
        · exact hv
        · exact h.filled x hx
      · intro y hy x hx hh
        rcases Finset.mem_insert.mp hy with rfl | hy
        · by_cases hx' : x ∈ insert y filled
          · exact .inl hx'
          · exact .inr (mem_push.mpr (.inr ⟨hx, hh, hx'⟩))
        · exact hpop x (h.closed y hy x hx hh)

omit [DecidableEq V] in
/-- With nothing left on the stack, all cells reached are filled. -/
theorem Inv.mem_iff {o : V} {s : List V × Finset V} (h : Inv nbrs holds o s) (hnil : s.1 = []) (x : V) :
    x ∈ s.2 ↔ Flooded nbrs holds o x := by
  have hdone : ∀ y, y ∈ s.2 ∨ y ∈ s.1 → y ∈ s.2 := by
    rintro y (hy | hy)
    · exact hy
    · rw [hnil] at hy
      cases hy
  refine ⟨h.filled x, fun hx => ?_⟩
  induction hx with
  | start => exact hdone o h.start
  | step _ hx hh ih => exact hdone _ (h.closed _ ih _ hx hh)

/-- What is still to be paid: the stack, and all cells that can still be filled with their
neighbors. -/
def cost (nbrs : V → List V) (cells : Finset V) (s : List V × Finset V) : ℕ :=
  s.1.length + ∑ x ∈ cells \ s.2, ((nbrs x).length + 1)

theorem cost_round {cells : Finset V} {s s' : List V × Finset V} (hcells : ∀ x ∈ s.1, x ∈ cells)
    (hs : round nbrs holds s = some s') : cost nbrs cells s' < cost nbrs cells s := by
  obtain ⟨stack, filled⟩ := s
  cases stack with
  | nil => cases hs
  | cons v stack =>
    rw [round] at hs
    split at hs
    · cases hs
      simp [cost]
    · next hfilled =>
      cases hs
      have hv : v ∈ cells \ filled := Finset.mem_sdiff.mpr ⟨hcells v (List.mem_cons_self ..), hfilled⟩
      have hsum : ∑ x ∈ cells \ insert v filled, ((nbrs x).length + 1) + ((nbrs v).length + 1) =
          ∑ x ∈ cells \ filled, ((nbrs x).length + 1) := by
        rw [Finset.sdiff_insert, Finset.sum_erase_add _ _ hv]
      have hlen := length_push holds (insert v filled) (nbrs v) stack
      simp only [cost, List.length_cons]
      omega

/-- **The flood**: where finitely many cells hold something, the loop ends, and has filled the
cells that are reached. -/
theorem flood_ends (nbrs : V → List V) (holds : V → Bool) (hfin : {x | holds x = true}.Finite) (o : V) :
    ∃ k filled, Loop.Ends (round nbrs holds) k ([o], ∅) ([], filled) ∧
      ∀ x, x ∈ filled ↔ Flooded nbrs holds o x := by
  have hstart : Inv nbrs holds o ([o], ∅) := by
    refine ⟨?_, ?_, .inr (List.mem_singleton.mpr rfl), ?_⟩
    · intro x hx
      rw [List.mem_singleton.mp hx]
      exact .start
    · intro x hx
      cases hx
    · intro y hy
      cases hy
  have hcells : ∀ {x}, Flooded nbrs holds o x → x ∈ insert o hfin.toFinset := by
    intro x hx
    rcases hx.eq_or_holds with rfl | hx
    · exact Finset.mem_insert_self _ _
    · exact Finset.mem_insert_of_mem (hfin.mem_toFinset.mpr hx)
  obtain ⟨k, ⟨stack, filled⟩, hk, hinv, hnone⟩ := Loop.ends_of_measure (round nbrs holds) (I := Inv nbrs holds o)
    (cost nbrs (insert o hfin.toFinset))
    (fun s s' hs hround => ⟨hs.step hround, cost_round (fun x hx => hcells (hs.stack x hx)) hround⟩) hstart
  have hnil : stack = [] := by
    cases stack with
    | nil => rfl
    | cons v stack =>
      rw [round] at hnone
      split at hnone <;> cases hnone
  subst hnil
  exact ⟨k, filled, hk, hinv.mem_iff rfl⟩

end Distgard.Lib.Flood
