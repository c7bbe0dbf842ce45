import Mathlib.Data.List.Basic

/-!
# Loops that stop at an error

Something is done to the values of a list of pairs, one after the other, until it fails for one of
them. What was done before is not undone, nor what was done to the one where it failed.
-/

namespace Distgard.Lib

variable {K V E : Type*}

/-- Do something to the values in order, as long as it works. -/
def tryEach (f : V → V × Except E Unit) : List (K × V) → List (K × V) × Except E Unit
  | [] => ([], .ok ())
  | (k, v) :: rest =>
    match f v with
    | (v', .ok ()) => ((k, v') :: (tryEach f rest).1, (tryEach f rest).2)
    | (v', .error e) => ((k, v') :: rest, .error e)

variable {f : V → V × Except E Unit}

theorem tryEach_cons_ok {k : K} {v v' : V} (h : f v = (v', .ok ())) (rest : List (K × V)) :
    tryEach f ((k, v) :: rest) = ((k, v') :: (tryEach f rest).1, (tryEach f rest).2) := by
  rw [tryEach, h]

theorem tryEach_cons_error {k : K} {v v' : V} {e : E} (h : f v = (v', .error e)) (rest : List (K × V)) :
    tryEach f ((k, v) :: rest) = ((k, v') :: rest, .error e) := by
  rw [tryEach, h]

theorem map_fst_tryEach (l : List (K × V)) : (tryEach f l).1.map Prod.fst = l.map Prod.fst := by
  induction l with
  | nil => rfl
  | cons p rest ih =>
    obtain ⟨k, v⟩ := p
    rcases h : f v with ⟨v', e | u⟩
    · rw [tryEach_cons_error h]
      rfl
    · rw [tryEach_cons_ok h, List.map_cons, List.map_cons, ih]

/-- A value is as before, or something was done to it. -/
theorem mem_tryEach {l : List (K × V)} {k : K} {v' : V} (h : (k, v') ∈ (tryEach f l).1) :
    ∃ v, (k, v) ∈ l ∧ (v' = v ∨ v' = (f v).1) := by
  induction l with
  | nil => exact (List.not_mem_nil h).elim
  | cons p rest ih =>
    obtain ⟨k₁, v₁⟩ := p
    rcases hf : f v₁ with ⟨v₂, e | u⟩
    · rw [tryEach_cons_error hf] at h
      rcases List.mem_cons.mp h with h | h
      · cases h
        exact ⟨v₁, List.mem_cons_self, .inr (by rw [hf])⟩
      · exact ⟨v', List.mem_cons_of_mem _ h, .inl rfl⟩
    · rw [tryEach_cons_ok hf] at h
      rcases List.mem_cons.mp h with h | h
      · cases h
        exact ⟨v₁, List.mem_cons_self, .inr (by rw [hf])⟩
      · obtain ⟨v, hv, hor⟩ := ih h
        exact ⟨v, List.mem_cons_of_mem _ hv, hor⟩

/-- **If nothing failed**, it was done to all values. -/
theorem mem_tryEach_ok {l : List (K × V)} (hok : (tryEach f l).2 = .ok ()) {k : K} {v' : V}
    (h : (k, v') ∈ (tryEach f l).1) : ∃ v, (k, v) ∈ l ∧ f v = (v', .ok ()) := by
  induction l with
  | nil => exact (List.not_mem_nil h).elim
  | cons p rest ih =>
    obtain ⟨k₁, v₁⟩ := p
    rcases hf : f v₁ with ⟨v₂, e | u⟩
    · rw [tryEach_cons_error hf] at hok
      cases hok
    · rw [tryEach_cons_ok hf] at h hok
      rcases List.mem_cons.mp h with h | h
      · cases h
        exact ⟨v₁, List.mem_cons_self, hf⟩
      · obtain ⟨v, hv, hfv⟩ := ih hok h
        exact ⟨v, List.mem_cons_of_mem _ hv, hfv⟩

/-- **Where it stopped**: it was done to the values before, and not to those after. -/
theorem tryEach_spec (l : List (K × V)) :
    (tryEach f l = (l.map fun p => (p.1, (f p.2).1), .ok ()) ∧ ∀ p ∈ l, (f p.2).2 = .ok ()) ∨
    ∃ before p after e, l = before ++ p :: after ∧ (∀ q ∈ before, (f q.2).2 = .ok ()) ∧ (f p.2).2 = .error e ∧
      tryEach f l = (before.map (fun q => (q.1, (f q.2).1)) ++ (p.1, (f p.2).1) :: after, .error e) := by
  induction l with
  | nil => exact .inl ⟨rfl, fun p hp => (List.not_mem_nil hp).elim⟩
  | cons p rest ih =>
    obtain ⟨k, v⟩ := p
    rcases hf : f v with ⟨v', e | u⟩
    · exact .inr ⟨[], (k, v), rest, e, rfl, fun q hq => (List.not_mem_nil hq).elim, by rw [hf], by
        rw [tryEach_cons_error hf, hf]
        rfl⟩
    · rcases ih with ⟨hrest, hall⟩ | ⟨before, p, after, e, rfl, hbefore, hp, hrest⟩
      · refine .inl ⟨?_, List.forall_mem_cons.mpr ⟨by rw [hf], hall⟩⟩
        rw [tryEach_cons_ok hf, hrest, List.map_cons, hf]
      · refine .inr ⟨(k, v) :: before, p, after, e, rfl, List.forall_mem_cons.mpr ⟨by rw [hf], hbefore⟩, hp, ?_⟩
        rw [tryEach_cons_ok hf, hrest, List.map_cons, hf]
        rfl

/-- If it failed, it failed for one of the values. -/
theorem exists_of_tryEach_error {l : List (K × V)} {e : E} (h : (tryEach f l).2 = .error e) :
    ∃ p ∈ l, (f p.2).2 = .error e := by
  rcases tryEach_spec (f := f) l with ⟨heq, -⟩ | ⟨before, p, after, e', rfl, -, hp, heq⟩
  · rw [heq] at h
    cases h
  · rw [heq] at h
    cases h
    exact ⟨p, List.mem_append_right _ List.mem_cons_self, hp⟩

end Distgard.Lib
