import Mathlib.Algebra.Group.Pi.Basic
import Mathlib.Algebra.BigOperators.Group.List.Basic
import Mathlib.Algebra.GroupWithZero.Nat

/-!
# A stock in slots

A stock is a list of slots, each with an item and how many of it there are; a slot that has
become empty holds the item `e`. `take` takes items out, each from the first slots that have
it; `put` puts some of one item into the first slot that has room for them; `Fits` says that
several such portions have room together.

`take_add` composes what is taken, `total_take` and `total_put` are what happens to the
totals, and `fits_take_put` says what room a portion leaves.
-/

namespace Distgard.Lib.Stock

variable {ι : Type*}

section

variable (e : ι)

/-- A slot after so much has been taken from it. -/
def drawn (t : ℕ) (s : ι × ℕ) : ι × ℕ := if t = 0 then s else if s.2 ≤ t then (e, 0) else (s.1, s.2 - t)

@[simp] theorem drawn_zero (s : ι × ℕ) : drawn e 0 s = s := if_pos rfl

/-- Of a slot, no more can be taken than there is. -/
theorem drawn_snd {t : ℕ} {s : ι × ℕ} (h : t ≤ s.2) : (drawn e t s).2 = s.2 - t := by
  rw [drawn]
  split
  · omega
  · split
    · simp only
      omega
    · rfl

theorem drawn_fst (t : ℕ) (s : ι × ℕ) : (drawn e t s).1 = s.1 ∨ drawn e t s = (e, 0) := by
  rw [drawn]
  split
  · exact Or.inl rfl
  · split
    · exact Or.inr rfl
    · exact Or.inl rfl

/-- Taking one first, from a slot that has more. -/
theorem drawn_succ (t : ℕ) (x : ι) {n : ℕ} (hn : 0 < n) : drawn e (t + 1) (x, n + 1) = drawn e t (x, n) := by
  rw [drawn, drawn, if_neg (Nat.succ_ne_zero t)]
  simp only [Nat.add_le_add_iff_right, Nat.add_sub_add_right]
  by_cases ht : t = 0
  · rw [if_pos ht, if_neg (by omega), ht, Nat.sub_zero]
  · rw [if_neg ht]

end

variable [DecidableEq ι]

/-- How much of an item the slots hold. -/
def total (x : ι) (l : List (ι × ℕ)) : ℕ := (l.map fun s => if s.1 = x then s.2 else 0).sum

@[simp] theorem total_nil (x : ι) : total x [] = 0 := rfl

@[simp] theorem total_cons (x : ι) (s : ι × ℕ) (l : List (ι × ℕ)) :
    total x (s :: l) = (if s.1 = x then s.2 else 0) + total x l := by
  simp [total]

/-- A slot holds no more than the total. -/
theorem le_total {s : ι × ℕ} {l : List (ι × ℕ)} (h : s ∈ l) : s.2 ≤ total s.1 l := by
  induction l with
  | nil => cases h
  | cons t l ih =>
    rw [total_cons]
    rcases List.mem_cons.mp h with rfl | h
    · rw [if_pos rfl]
      exact Nat.le_add_right _ _
    · exact Nat.le_trans (ih h) (Nat.le_add_left _ _)

section

variable (e : ι)

/-- The slots after so much of every item has been taken, from the first slots on. -/
def take : (ι → ℕ) → List (ι × ℕ) → List (ι × ℕ)
  | _, [] => []
  | f, s :: l => drawn e (min (f s.1) s.2) s :: take (Function.update f s.1 (f s.1 - s.2)) l

/-- Slots with the item of empty slots are empty. -/
def Clean (l : List (ι × ℕ)) : Prop := ∀ s ∈ l, s.1 = e → s.2 = 0

@[simp] theorem take_zero (l : List (ι × ℕ)) : take e 0 l = l := by
  induction l with
  | nil => rfl
  | cons s l ih =>
    have hzero : (Function.update (0 : ι → ℕ) s.1 (0 - s.2) : ι → ℕ) = (0 : ι → ℕ) := by
      rw [Nat.zero_sub]
      exact Function.update_eq_self s.1 (0 : ι → ℕ)
    rw [take, Pi.zero_apply, Nat.zero_min, drawn_zero, hzero, ih]

/-- Taking twice from a slot is taking the sum, and leaves the sum to be taken. -/
theorem drawn_drawn (f g : ι → ℕ) (s : ι × ℕ) :
    let s' := drawn e (min (f s.1) s.2) s
    drawn e (min (g s'.1) s'.2) s' = drawn e (min (f s.1 + g s.1) s.2) s ∧
      Function.update f s.1 (f s.1 - s.2) + Function.update g s'.1 (g s'.1 - s'.2) =
        Function.update (f + g) s.1 (f s.1 + g s.1 - s.2) := by
  obtain ⟨x, c⟩ := s
  have hupdate : ∀ h : ι → ℕ, ∀ n m, h = Function.update g x m → f x - c + m = n →
      Function.update f x (f x - c) + h = Function.update (f + g) x n := by
    rintro h n m rfl hn
    funext y
    by_cases hy : y = x
    · subst hy
      simp [hn]
    · simp [hy]
  by_cases hzero : min (f x) c = 0
  · simp only [hzero, drawn_zero]
    constructor
    · congr 1
      omega
    · exact hupdate _ _ _ rfl (by omega)
  · by_cases hall : c ≤ min (f x) c
    · have hs' : drawn e (min (f x) c) (x, c) = (e, 0) := by
        rw [drawn, if_neg hzero, if_pos hall]
      simp only [hs', Nat.min_zero, drawn_zero]
      constructor
      · rw [drawn, if_neg (by omega), if_pos (by simp only; omega)]
      · apply hupdate _ _ (g x)
        · rw [Nat.sub_zero, Function.update_eq_self, Function.update_eq_self]
        · omega
    · have hs' : drawn e (min (f x) c) (x, c) = (x, c - f x) := by
        rw [drawn, if_neg hzero, if_neg hall]
        simp only [Prod.mk.injEq, true_and]
        omega
      simp only [hs']
      constructor
      · rw [drawn, drawn]
        simp only
        by_cases hg : min (g x) (c - f x) = 0
        · rw [if_pos hg, if_neg (by omega), if_neg (by omega)]
          simp only [Prod.mk.injEq, true_and]
          omega
        · rw [if_neg hg, if_neg (by omega : ¬ min (f x + g x) c = 0)]
          by_cases hlast : c - f x ≤ min (g x) (c - f x)
          · rw [if_pos hlast, if_pos (by omega)]
          · rw [if_neg hlast, if_neg (by omega)]
            simp only [Prod.mk.injEq, true_and]
            omega
      · exact hupdate _ _ _ rfl (by omega)

/-- **Taking twice** is taking the sum. -/
theorem take_add (f g : ι → ℕ) (l : List (ι × ℕ)) : take e g (take e f l) = take e (f + g) l := by
  induction l generalizing f g with
  | nil => rfl
  | cons s l ih =>
    obtain ⟨hhead, htail⟩ := drawn_drawn e f g s
    rw [take, take, take, ih, hhead, htail]
    rfl

/-- **What is taken** is missing from the totals. -/
theorem total_take (x : ι) (f : ι → ℕ) (l : List (ι × ℕ)) : total x (take e f l) = total x l - f x := by
  induction l generalizing f with
  | nil => rw [take, total_nil, Nat.zero_sub]
  | cons s l ih =>
    rw [take, total_cons, total_cons, ih]
    by_cases hx : s.1 = x
    · have hsnd := drawn_snd e (Nat.min_le_right (f s.1) s.2)
      have hhead : (if (drawn e (min (f s.1) s.2) s).1 = x then (drawn e (min (f s.1) s.2) s).2 else 0) =
          s.2 - min (f s.1) s.2 := by
        rcases drawn_fst e (min (f s.1) s.2) s with h | h
        · rw [if_pos (h.trans hx), hsnd]
        · rw [← hsnd, h]
          simp only [ite_self]
      rw [hhead, if_pos hx, ← hx, Function.update_self]
      omega
    · have hhead : (if (drawn e (min (f s.1) s.2) s).1 = x then (drawn e (min (f s.1) s.2) s).2 else 0) = 0 := by
        rcases drawn_fst e (min (f s.1) s.2) s with h | h
        · rw [if_neg (fun he => hx (h.symm.trans he))]
        · rw [h]
          simp only [ite_self]
      rw [hhead, if_neg hx, Function.update_of_ne (Ne.symm hx), Nat.zero_add, Nat.zero_add]

/-- Taking leaves the number of slots. -/
theorem length_take (f : ι → ℕ) (l : List (ι × ℕ)) : (take e f l).length = l.length := by
  induction l generalizing f with
  | nil => rfl
  | cons s l ih => rw [take, List.length_cons, List.length_cons, ih]

/-- Taking leaves no slot with more than it had. -/
theorem take_le (f : ι → ℕ) (l : List (ι × ℕ)) : List.Forall₂ (fun s' s => s'.2 ≤ s.2) (take e f l) l := by
  induction l generalizing f with
  | nil => exact .nil
  | cons s l ih =>
    refine .cons ?_ (ih _)
    rw [drawn_snd e (Nat.min_le_right (f s.1) s.2)]
    exact Nat.sub_le _ _

/-- Taking leaves empty slots empty. -/
theorem Clean.take {l : List (ι × ℕ)} (h : Clean e l) (f : ι → ℕ) : Clean e (take e f l) := by
  induction l generalizing f with
  | nil => exact h
  | cons s l ih =>
    intro t ht he
    rcases List.mem_cons.mp ht with rfl | ht
    · rcases drawn_fst e (min (f s.1) s.2) s with hs | hs
      · rw [drawn_snd e (Nat.min_le_right (f s.1) s.2), h s (List.mem_cons_self ..) (hs.symm.trans he), Nat.zero_sub]
      · rw [hs]
    · exact ih (fun s hs => h s (List.mem_cons_of_mem _ hs)) _ t ht he

end

/-! ### Putting in -/

section

variable (e x : ι) (r limit : ℕ)

/-- The slot is empty or holds the item. -/
def Takes (s : ι × ℕ) : Prop := s.1 = e ∨ s.1 = x

instance (s : ι × ℕ) : Decidable (Takes e x s) := inferInstanceAs (Decidable (s.1 = e ∨ s.1 = x))

/-- Put a portion of the item into the first slot that has room for it. -/
def put : List (ι × ℕ) → Option (List (ι × ℕ))
  | [] => none
  | s :: l => if Takes e x s ∧ s.2 + r ≤ limit then some ((x, s.2 + r) :: l) else (put l).map (s :: ·)

/-- So many portions of the item have room in the slots. -/
def Fits : List (ι × ℕ) → ℕ → Prop
  | [], k => k = 0
  | s :: l, k => ∃ m ≤ k, (0 < m → Takes e x s ∧ s.2 + m * r ≤ limit) ∧ Fits l (k - m)

/-- Whether portions have room can be computed. -/
instance decidableFits : ∀ (l : List (ι × ℕ)) (k : ℕ), Decidable (Fits e x r limit l k)
  | [], k => inferInstanceAs (Decidable (k = 0))
  | s :: l, k =>
    have := decidableFits l
    inferInstanceAs (Decidable (∃ m, m ≤ k ∧ (0 < m → Takes e x s ∧ s.2 + m * r ≤ limit) ∧ Fits e x r limit l (k - m)))

variable {e x r limit}

omit [DecidableEq ι] in
theorem fits_zero (l : List (ι × ℕ)) : Fits e x r limit l 0 := by
  induction l with
  | nil => rfl
  | cons s l ih => exact ⟨0, Nat.le_refl 0, fun h => absurd h (Nat.lt_irrefl 0), ih⟩

omit [DecidableEq ι] in
/-- Fewer portions have room where more have. -/
theorem Fits.of_succ {l : List (ι × ℕ)} {k : ℕ} (h : Fits e x r limit l (k + 1)) : Fits e x r limit l k := by
  induction l generalizing k with
  | nil => cases h
  | cons s l ih =>
    obtain ⟨m, hm, hroom, hrest⟩ := h
    by_cases hlast : m = k + 1
    · subst hlast
      refine ⟨k, Nat.le_refl k, ?_, ?_⟩
      · intro _
        obtain ⟨htakes, hle⟩ := hroom (by omega)
        rw [Nat.succ_mul] at hle
        exact ⟨htakes, by omega⟩
      · rw [Nat.sub_self]
        exact fits_zero l
    · refine ⟨m, by omega, hroom, ?_⟩
      rw [show k + 1 - m = k - m + 1 by omega] at hrest
      exact ih hrest

/-- A portion can be put in exactly when one has room. -/
theorem put_isSome_iff (l : List (ι × ℕ)) : (put e x r limit l).isSome ↔ Fits e x r limit l 1 := by
  induction l with
  | nil => simp [put, Fits]
  | cons s l ih =>
    rw [put]
    split
    · next h =>
      simp only [Option.isSome_some, true_iff]
      refine ⟨1, Nat.le_refl 1, fun _ => ?_, fits_zero l⟩
      rw [Nat.one_mul]
      exact h
    · next h =>
      rw [Option.isSome_map, ih]
      constructor
      · intro hl
        exact ⟨0, Nat.zero_le 1, fun h0 => absurd h0 (Nat.lt_irrefl 0), hl⟩
      · rintro ⟨m, hm, hroom, hrest⟩
        by_cases hm0 : m = 0
        · subst hm0
          exact hrest
        · have hm1 : m = 1 := by omega
          subst hm1
          have hhere := hroom Nat.one_pos
          rw [Nat.one_mul] at hhere
          exact absurd hhere h

/-- **What room a portion leaves**: what has room afterwards had room with it before, also
after other items have been taken out of both. -/
theorem fits_take_put {l l' : List (ι × ℕ)} {f : ι → ℕ} (he : f e = 0) (hx : f x = 0)
    (h : put e x r limit l = some l') (k : ℕ) :
    Fits e x r limit (take e f l') k ↔ Fits e x r limit (take e f l) (k + 1) := by
  induction l generalizing l' f k with
  | nil => cases h
  | cons s l ih =>
    rw [put] at h
    split at h
    · next hhere =>
      -- the portion goes into this slot, from which nothing is taken
      cases h
      have hs : f s.1 = 0 := by
        rcases hhere.1 with h | h
        · rw [h, he]
        · rw [h, hx]
      have htake : ∀ c, take e f ((s.1, c) :: l) = (s.1, c) :: take e f l := by
        intro c
        rw [take, hs, Nat.zero_min, drawn_zero, Nat.zero_sub, ← hs, Function.update_eq_self]
      have htake' : ∀ c, take e f ((x, c) :: l) = (x, c) :: take e f l := by
        intro c
        rw [take, hx, Nat.zero_min, drawn_zero, Nat.zero_sub, ← hx, Function.update_eq_self]
      rw [htake', htake s.2]
      constructor
      · rintro ⟨m, hm, hroom, hrest⟩
        refine ⟨m + 1, by omega, fun _ => ⟨hhere.1, ?_⟩, ?_⟩
        · by_cases hm0 : m = 0
          · subst hm0
            rw [Nat.zero_add, Nat.one_mul]
            exact hhere.2
          · have hle := (hroom (by omega)).2
            rw [Nat.succ_mul]
            simp only at hle ⊢
            omega
        · rw [Nat.add_sub_add_right]
          exact hrest
      · rintro ⟨m, hm, hroom, hrest⟩
        by_cases hm0 : m = 0
        · subst hm0
          exact ⟨0, Nat.zero_le k, fun h0 => absurd h0 (Nat.lt_irrefl 0), hrest.of_succ⟩
        · refine ⟨m - 1, by omega, fun _ => ⟨Or.inr rfl, ?_⟩, ?_⟩
          · have hle := (hroom (by omega)).2
            obtain ⟨n, rfl⟩ := Nat.exists_eq_succ_of_ne_zero hm0
            rw [Nat.succ_mul] at hle
            simp only [Nat.succ_eq_add_one, Nat.add_sub_cancel] at hle ⊢
            omega
          · rw [show k - (m - 1) = k + 1 - m by omega]
            exact hrest
    · next hnot =>
      obtain ⟨l'', hl'', rfl⟩ := Option.map_eq_some_iff.mp h
      have he' : (Function.update f s.1 (f s.1 - s.2)) e = 0 := by
        by_cases hse : e = s.1
        · rw [← hse, Function.update_self, he, Nat.zero_sub]
        · rw [Function.update_of_ne hse, he]
      have hx' : (Function.update f s.1 (f s.1 - s.2)) x = 0 := by
        by_cases hsx : x = s.1
        · rw [← hsx, Function.update_self, hx, Nat.zero_sub]
        · rw [Function.update_of_ne hsx, hx]
      have hrec := fun k => ih he' hx' hl'' k
      rw [take, take]
      constructor
      · rintro ⟨m, hm, hroom, hrest⟩
        refine ⟨m, by omega, hroom, ?_⟩
        rw [show k + 1 - m = k - m + 1 by omega]
        exact (hrec _).mp hrest
      · rintro ⟨m, hm, hroom, hrest⟩
        by_cases hlast : m = k + 1
        · subst hlast
          refine ⟨k, Nat.le_refl k, fun _ => ?_, ?_⟩
          · obtain ⟨htakes, hle⟩ := hroom (by omega)
            rw [Nat.succ_mul] at hle
            exact ⟨htakes, by omega⟩
          · rw [Nat.sub_self]
            exact fits_zero _
        · refine ⟨m, by omega, hroom, ?_⟩
          rw [show k + 1 - m = k - m + 1 by omega] at hrest
          exact (hrec _).mpr hrest

/-- A portion finds no slot when none has room for it. -/
theorem put_eq_none_iff (l : List (ι × ℕ)) :
    put e x r limit l = none ↔ ∀ s ∈ l, ¬ (Takes e x s ∧ s.2 + r ≤ limit) := by
  induction l with
  | nil => simp [put]
  | cons s l ih =>
    rw [put, List.forall_mem_cons]
    split
    · next hroom => simp [hroom]
    · next hroom => rw [Option.map_eq_none_iff, ih, and_iff_right hroom]

/-- **What is put in** is added to the totals. -/
theorem total_put {l l' : List (ι × ℕ)} (hclean : x ≠ e → Clean e l) (h : put e x r limit l = some l') (y : ι) :
    total y l' = total y l + if x = y then r else 0 := by
  induction l generalizing l' with
  | nil => cases h
  | cons s l ih =>
    rw [put] at h
    split at h
    · next hhere =>
      cases h
      rw [total_cons, total_cons]
      rcases hhere.1 with hs | hs
      · by_cases hxe : x = e
        · rw [hs, hxe]
          split
          · omega
          · rfl
        · rw [hclean hxe s (List.mem_cons_self ..) hs, ite_self, Nat.zero_add, Nat.zero_add, Nat.add_comm]
      · rw [hs]
        split
        · omega
        · rfl
    · obtain ⟨l'', hl'', rfl⟩ := Option.map_eq_some_iff.mp h
      rw [total_cons, total_cons, ih (fun hxe t ht => hclean hxe t (List.mem_cons_of_mem _ ht)) hl'', Nat.add_assoc]

/-- Putting in another item leaves empty slots empty. -/
theorem Clean.put {l l' : List (ι × ℕ)} (hclean : Clean e l) (hx : x ≠ e) (h : put e x r limit l = some l') :
    Clean e l' := by
  induction l generalizing l' with
  | nil => cases h
  | cons s l ih =>
    rw [Stock.put] at h
    have htail : Clean e l := fun t ht => hclean t (List.mem_cons_of_mem _ ht)
    split at h
    · cases h
      intro t ht he
      rcases List.mem_cons.mp ht with rfl | ht
      · exact absurd he hx
      · exact htail t ht he
    · obtain ⟨l'', hl'', rfl⟩ := Option.map_eq_some_iff.mp h
      intro t ht he
      rcases List.mem_cons.mp ht with rfl | ht
      · exact hclean t (List.mem_cons_self ..) he
      · exact ih htail hl'' t ht he

end

end Distgard.Lib.Stock
