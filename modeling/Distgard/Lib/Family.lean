import Mathlib.Algebra.BigOperators.Group.Finset.Basic

/-!
# Families of which one member changes

The sum over a family after one of its members was replaced.
-/

namespace Distgard.Lib

variable {ι α M : Type*} [DecidableEq ι] [AddCommMonoid M]

theorem sum_update_add {s : Finset ι} {i : ι} (hi : i ∈ s) (f : ι → α) (g : α → M) (a : α) :
    ∑ j ∈ s, g (Function.update f i a j) + g (f i) = ∑ j ∈ s, g (f j) + g a := by
  rw [← Finset.add_sum_erase s _ hi, ← Finset.add_sum_erase s (fun j => g (f j)) hi, Function.update_self]
  have hrest : ∑ j ∈ s.erase i, g (Function.update f i a j) = ∑ j ∈ s.erase i, g (f j) := by
    refine Finset.sum_congr rfl fun j hj => ?_
    rw [Function.update_of_ne (Finset.ne_of_mem_erase hj)]
  rw [hrest, add_comm (g a), add_right_comm, add_comm (g (f i)), add_right_comm]

end Distgard.Lib
