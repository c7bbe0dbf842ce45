import Mathlib.Data.List.Basic
import Mathlib.Data.List.Count

/-!
# Places after a stable partition

A list is split into the entries that satisfy a test and the others, each in their old
order, and the two are put one after the other. `rank` is the place where an entry comes to
stand, told from the old list alone; every place of the new list is the rank of an entry
(`getElem?_partition`, `exists_rank`).
-/

namespace Distgard.Lib

variable {α : Type*} (p : α → Bool)

/-- The entries that satisfy the test, then the others. -/
def partitioned (l : List α) : List α := l.filter p ++ l.filter fun a => !p a

/-- The place of the `j`-th entry `a` after the partition. -/
def rank (l : List α) (j : ℕ) (a : α) : ℕ :=
  if p a then (l.take j).countP p else l.countP p + (l.take j).countP fun b => !p b

variable {p} {l : List α}

theorem length_partitioned : (partitioned p l).length = l.length := by
  exact (List.filter_append_perm p l).length_eq

theorem getElem?_filter_countP {j : ℕ} {a : α} (h : l[j]? = some a) (ha : p a = true) :
    (l.filter p)[(l.take j).countP p]? = some a := by
  induction l generalizing j with
  | nil => cases h
  | cons b l ih =>
    cases j with
    | zero =>
      cases h
      rw [List.filter_cons_of_pos ha]
      rfl
    | succ j =>
      have hrest := ih h
      by_cases hb : p b = true
      · rw [List.filter_cons_of_pos hb, List.take_succ_cons, List.countP_cons_of_pos hb]
        exact hrest
      · rw [List.filter_cons_of_neg hb, List.take_succ_cons, List.countP_cons_of_neg hb]
        exact hrest

theorem exists_of_getElem?_filter {i : ℕ} {a : α} (h : (l.filter p)[i]? = some a) :
    ∃ j : ℕ, l[j]? = some a ∧ p a = true ∧ (l.take j).countP p = i := by
  induction l generalizing i with
  | nil => cases h
  | cons b l ih =>
    by_cases hb : p b = true
    · rw [List.filter_cons_of_pos hb] at h
      cases i with
      | zero =>
        cases h
        exact ⟨0, rfl, hb, rfl⟩
      | succ i =>
        obtain ⟨j, hj, ha, hi⟩ := ih h
        exact ⟨j + 1, hj, ha, by rw [List.take_succ_cons, List.countP_cons_of_pos hb, hi]⟩
    · rw [List.filter_cons_of_neg hb] at h
      obtain ⟨j, hj, ha, hi⟩ := ih h
      exact ⟨j + 1, hj, ha, by rw [List.take_succ_cons, List.countP_cons_of_neg hb, hi]⟩

/-- **An entry comes to stand at its rank.** -/
theorem getElem?_partition {j : ℕ} {a : α} (h : l[j]? = some a) : (partitioned p l)[rank p l j a]? = some a := by
  unfold partitioned rank
  by_cases ha : p a = true
  · have hfirst := getElem?_filter_countP h ha
    rw [if_pos ha, List.getElem?_append_left (List.getElem?_eq_some_iff.mp hfirst).1, hfirst]
  · rw [if_neg ha, List.countP_eq_length_filter, List.getElem?_append_right (Nat.le_add_right _ _),
      Nat.add_sub_cancel_left]
    exact getElem?_filter_countP h (by simpa using ha)

/-- **Every place is the rank of an entry.** -/
theorem exists_rank {i : ℕ} {a : α} (h : (partitioned p l)[i]? = some a) :
    ∃ j : ℕ, l[j]? = some a ∧ rank p l j a = i := by
  unfold partitioned at h
  unfold rank
  rcases Nat.lt_or_ge i (l.filter p).length with hi | hi
  · rw [List.getElem?_append_left hi] at h
    obtain ⟨j, hj, ha, hrank⟩ := exists_of_getElem?_filter h
    exact ⟨j, hj, by rw [if_pos ha, hrank]⟩
  · rw [List.getElem?_append_right hi] at h
    obtain ⟨j, hj, ha, hrank⟩ := exists_of_getElem?_filter h
    refine ⟨j, hj, ?_⟩
    rw [if_neg (by simpa using ha), hrank, List.countP_eq_length_filter]
    omega

end Distgard.Lib
