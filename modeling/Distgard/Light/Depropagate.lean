import Distgard.Light.Propagate

/-!
# Taking back the light of one origin

`depropagateLightOrigin` follows the recorded directions from an origin and takes out the
origin's rays on its way. Nothing tells it which cells are lit: that it finds them all
rests on `Linked`, which spreading light establishes (`propagate_linked`) and which the
loop keeps for the rays that are left, starting from the cells on its stack.

## What is proved

* `depropagate_frame` — the rays of every other origin stay as they were.
* `depropagate_own` — from a lightmap whose rays of the origin are linked to it, no ray of
  the origin is left.
-/

namespace Distgard

open Lib LightMap

/-- The state of the loop that takes light back. -/
structure DepropState where
  /-- The cells still to be visited, the next one first. -/
  stack : List IVec3
  /-- The lightmap. -/
  lightmap : LightMap
  /-- The chunks, other than the origin's, that have been visited. -/
  imp : HashSet IVec2

section

variable (origin : IVec3)

/-- One round of the loop: take the origin's rays out of the cell popped from the stack,
and put the neighbors in their directions on the stack. -/
def depropStep (st : DepropState) : Option DepropState :=
  match st.stack with
  | [] => none
  | spot :: rest =>
    let imp := enterChunk origin spot st.imp
    match st.lightmap.lookup spot with
    | some seg =>
      let directions := (seg.rays.filter (·.origin = origin)).flatMap LightRay.directions
      some { stack := directions.foldl (fun stack dir => (spot + dir.offset) :: stack) rest
             lightmap := st.lightmap.insert spot ⟨seg.rays.filter (·.origin ≠ origin)⟩
             imp := imp }
    | none => some { stack := rest, lightmap := st.lightmap, imp := imp }

/-- How many directions the rays of the origin have in a segment. -/
def segDirections (seg : LightSegment) : ℕ :=
  ((seg.rays.filter (·.origin = origin)).flatMap LightRay.directions).length

theorem length_pushes (spot : IVec3) (l : List CubeSide) (stack : List IVec3) :
    (l.foldl (fun stack dir => (spot + dir.offset) :: stack) stack).length = stack.length + l.length := by
  induction l generalizing stack with
  | nil => rfl
  | cons dir l ih => rw [List.foldl_cons, ih, List.length_cons, List.length_cons]; omega

theorem mem_pushes {spot x : IVec3} {l : List CubeSide} {stack : List IVec3} :
    x ∈ l.foldl (fun stack dir => (spot + dir.offset) :: stack) stack ↔
      x ∈ stack ∨ ∃ dir ∈ l, x = spot + dir.offset := by
  induction l generalizing stack with
  | nil => simp
  | cons dir l ih =>
    rw [List.foldl_cons, ih]
    simp only [List.mem_cons, exists_eq_or_imp]
    tauto

/-- Every cell pushed is paid for by a direction taken out of the map. -/
theorem depropStep_decreases : Loop.Decreases (depropStep origin)
    fun st => st.stack.length + HashMap.sum (segDirections origin) st.lightmap := by
  intro st st' h
  unfold depropStep at h
  match hst : st.stack with
  | [] => rw [hst] at h; cases h
  | spot :: rest =>
    rw [hst] at h
    simp only at h
    split at h
    · next seg hseg =>
      cases h
      have hsum := HashMap.sum_insert (segDirections origin) st.lightmap
        (w := ⟨seg.rays.filter (·.origin ≠ origin)⟩) hseg
      have hzero : segDirections origin ⟨seg.rays.filter (·.origin ≠ origin)⟩ = 0 := by
        simp [segDirections, List.filter_filter]
      have hlen : segDirections origin seg =
          ((seg.rays.filter (·.origin = origin)).flatMap LightRay.directions).length := rfl
      simp only [length_pushes, hst, List.length_cons]
      omega
    · cases h
      simp [hst]

/-- Take back the light of the origin; the chunks visited are added to `imp`. -/
def depropagateLightOrigin (lightmap : LightMap) (imp : HashSet IVec2) : LightMap × HashSet IVec2 :=
  let st := Loop.exec (depropStep origin) (fun st => st.stack.length + HashMap.sum (segDirections origin) st.lightmap)
    (depropStep_decreases origin) ⟨[origin], lightmap, imp⟩
  (st.lightmap, st.imp)

variable {origin}

/-- What a round does: it takes the origin's rays out of one cell, and pushes the cells
they went on to. -/
theorem depropStep_cases {st st' : DepropState} (h : depropStep origin st = some st') :
    ∃ spot rest, st.stack = spot :: rest ∧
      (∀ x, st'.lightmap.others origin x = st.lightmap.others origin x) ∧
      (∀ x, st'.lightmap.own origin x = if x = spot then [] else st.lightmap.own origin x) ∧
      ∀ x, x ∈ st'.stack ↔
        x ∈ rest ∨ ∃ r ∈ st.lightmap.own origin spot, ∃ dir ∈ r.directions, x = spot + dir.offset := by
  unfold depropStep at h
  match hst : st.stack with
  | [] => rw [hst] at h; cases h
  | spot :: rest =>
    refine ⟨spot, rest, rfl, ?_⟩
    rw [hst] at h
    simp only at h
    split at h
    · next seg hseg =>
      cases h
      have hrays : st.lightmap.rays spot = seg.rays := by rw [rays, hseg]; rfl
      refine ⟨?_, ?_, ?_⟩
      · intro x
        rw [others, others, rays_insert]
        split
        · next hx => subst hx; rw [hrays, List.filter_filter]; simp
        · rfl
      · intro x
        rw [own, rays_insert]
        split
        · rw [List.filter_filter]; simp
        · rfl
      · intro x
        rw [mem_pushes, own, hrays]
        simp only [List.mem_flatMap]
        constructor
        · rintro (hx | ⟨dir, ⟨r, hr, hd⟩, hx⟩)
          · exact .inl hx
          · exact .inr ⟨r, hr, dir, hd, hx⟩
        · rintro (hx | ⟨r, hr, dir, hd, hx⟩)
          · exact .inl hx
          · exact .inr ⟨dir, ⟨r, hr, hd⟩, hx⟩
    · next hnone =>
      cases h
      have hown : st.lightmap.own origin spot = [] := by rw [own, rays, hnone]; rfl
      refine ⟨fun _ => rfl, ?_, ?_⟩
      · intro x
        split
        · next hx => subst hx; exact hown
        · rfl
      · intro x
        rw [hown]; simp

/-- The loop stops when the stack is empty. -/
theorem stack_eq_nil_of_depropStep {st : DepropState} (h : depropStep origin st = none) : st.stack = [] := by
  unfold depropStep at h
  match hst : st.stack with
  | [] => rfl
  | spot :: rest =>
    rw [hst] at h
    simp only at h
    split at h <;> cases h

/-- **Frame**: the rays of every other origin stay as they were. -/
theorem depropagate_frame (origin : IVec3) (lm : LightMap) (imp : HashSet IVec2) (x : IVec3) :
    (depropagateLightOrigin origin lm imp).1.others origin x = lm.others origin x := by
  refine (Loop.exec_induct (depropStep_decreases origin)
    (I := fun st => st.lightmap.others origin x = lm.others origin x) ?_ rfl).1
  intro st st' hI hs
  obtain ⟨spot, rest, -, hothers, -, -⟩ := depropStep_cases hs
  rw [hothers, hI]

/-- A cell found from `o` along the directions is, once a cell's ray is taken out, still
found from `o`, or from a neighbor in the directions of the ray taken out, unless it is
that cell. -/
theorem Linked.cut {R R' : IVec3 → Option LightRay} {o spot x : IVec3}
    (hR : ∀ y, R' y = if y = spot then none else R y) (h : Linked R o x) :
    x = spot ∨ Linked R' o x ∨ ∃ r, R spot = some r ∧ ∃ dir ∈ r.directions, Linked R' (spot + dir.offset) x := by
  induction h with
  | origin => exact .inr (.inl .origin)
  | @step y r side _ hy hs ih =>
    right
    by_cases hys : y = spot
    · subst hys
      exact .inr ⟨r, hy, side, hs, .origin⟩
    · have hy' : R' y = some r := by rw [hR, if_neg hys, hy]
      rcases ih with h | h | ⟨r', hr', dir, hd, h⟩
      · exact absurd h hys
      · exact .inl (.step h hy' hs)
      · exact .inr ⟨r', hr', dir, hd, .step h hy' hs⟩

/-- From a cell without a ray only the cell itself is found. -/
theorem Linked.eq_of_none {R : IVec3 → Option LightRay} {o x : IVec3} (ho : R o = none) (h : Linked R o x) :
    x = o := by
  induction h with
  | origin => rfl
  | step _ hy _ ih => rw [ih, ho] at hy; cases hy

/-- The invariant: every cell that is still lit is found from a cell on the stack. -/
structure Found (origin : IVec3) (st : DepropState) : Prop where
  /-- No cell has two rays of the origin. -/
  single : st.lightmap.Single origin
  /-- A lit cell is found from the stack. -/
  found : ∀ x r, st.lightmap.ray? origin x = some r → ∃ s ∈ st.stack, Linked (st.lightmap.ray? origin) s x

theorem Found.step {st st' : DepropState} (h : Found origin st) (hs : depropStep origin st = some st') :
    Found origin st' := by
  obtain ⟨spot, rest, hst, -, hown, hmem⟩ := depropStep_cases hs
  have hray : ∀ y, st'.lightmap.ray? origin y = if y = spot then none else st.lightmap.ray? origin y := by
    intro y
    rw [ray?, hown]
    split <;> rfl
  refine ⟨?_, ?_⟩
  · intro y
    rw [hown]
    split
    · exact Nat.zero_le 1
    · exact h.single y
  · intro y r hr
    have hy : y ≠ spot := by
      rintro rfl
      rw [hray, if_pos rfl] at hr
      cases hr
    rw [hray, if_neg hy] at hr
    obtain ⟨s, hs, hl⟩ := h.found y r hr
    rcases hl.cut hray with hx | hx | ⟨r', hr', dir, hd, hx⟩
    · exact absurd hx hy
    · rcases List.mem_cons.mp (hst ▸ hs) with rfl | hs
      · -- found from the popped cell, whose ray is gone: it is that cell
        exact absurd (hx.eq_of_none (by rw [hray, if_pos rfl])) hy
      · exact ⟨s, (hmem s).mpr (.inl hs), hx⟩
    · refine ⟨spot + dir.offset, (hmem _).mpr (.inr ⟨r', ?_, dir, hd, rfl⟩), hx⟩
      rw [h.single.own_eq, hr']
      exact List.mem_singleton.mpr rfl

/-- **Complete**: when the rays of the origin are linked to it, none of them is left. -/
theorem depropagate_own {lm : LightMap} (hsingle : lm.Single origin)
    (hlinked : ∀ x r, lm.ray? origin x = some r → Linked (lm.ray? origin) origin x) (imp : HashSet IVec2)
    (x : IVec3) : (depropagateLightOrigin origin lm imp).1.own origin x = [] := by
  have hstart : Found origin ⟨[origin], lm, imp⟩ :=
    ⟨hsingle, fun x r hr => ⟨origin, List.mem_singleton.mpr rfl, hlinked x r hr⟩⟩
  obtain ⟨hfound, hnone⟩ := Loop.exec_induct (depropStep_decreases origin) (fun _ _ => Found.step) hstart
  have hnil := stack_eq_nil_of_depropStep hnone
  rw [← ray?_eq_none_iff, Option.eq_none_iff_forall_not_mem]
  intro r hr
  obtain ⟨s, hs, -⟩ := hfound.found x r hr
  rw [hnil] at hs
  cases hs

end

end Distgard
