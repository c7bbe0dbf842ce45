import Distgard.Lib.HashMap
import Distgard.Light.Color
import Distgard.Vec

/-!
# The lightmap

The lightmap gives each cell the rays that light it: from which cell the ray comes, its
color here, and the directions in which it went on, kept so that the light can be taken
back along them (`Light.Depropagate`). The rays of one origin are read off with `ray?`,
those of every other origin with `others`; the writes that the passes make (`shine`,
`addDirection`) are described by what they do to these two.
-/

namespace Distgard

open Lib

/-- A ray of light in a cell. -/
structure LightRay where
  /-- The color here. -/
  value : LightColor
  /-- The cell the light comes from. -/
  origin : IVec3
  /-- The directions in which it went on from here. -/
  directions : List CubeSide
  deriving DecidableEq, Repr

/-- The rays in a cell. -/
structure LightSegment where
  /-- The rays. -/
  rays : List LightRay
  deriving DecidableEq, Repr

/-- The lightmap: the rays of every cell that has some. -/
abbrev LightMap := HashMap IVec3 LightSegment

/-- Note the chunk of a cell which a light comes to, if it is not the chunk of its origin. -/
def enterChunk (origin spot : IVec3) (imp : HashSet IVec2) : HashSet IVec2 :=
  if spotToChunkPos origin ≠ spotToChunkPos spot then imp.insert (spotToChunkPos spot) else imp

namespace LightMap

/-- The rays in a cell. -/
def rays (lm : LightMap) (x : IVec3) : List LightRay := (lm.lookup x).elim [] LightSegment.rays

/-- The rays of an origin in a cell. -/
def own (lm : LightMap) (o x : IVec3) : List LightRay := (lm.rays x).filter (·.origin = o)

/-- The rays of every other origin in a cell. -/
def others (lm : LightMap) (o x : IVec3) : List LightRay := (lm.rays x).filter (·.origin ≠ o)

/-- The first ray of an origin in a cell. -/
def ray? (lm : LightMap) (o x : IVec3) : Option LightRay := (lm.own o x).head?

/-- No cell has two rays of the origin. -/
def Single (lm : LightMap) (o : IVec3) : Prop := ∀ x, (lm.own o x).length ≤ 1

/-- The color in a cell of the light from an origin: of the last of its rays, or none. -/
def existingValue (lm : LightMap) (o x : IVec3) : LightColor :=
  (lm.rays x).foldl (fun v r => if r.origin = o then r.value else v) LightColor.ZERO

theorem rays_insert (lm : LightMap) (s x : IVec3) (seg : LightSegment) :
    rays (lm.insert s seg) x = if x = s then seg.rays else lm.rays x := by
  rw [rays, HashMap.lookup_insert']
  split <;> rfl

@[simp] theorem rays_empty (x : IVec3) : rays ∅ x = [] := by simp [rays]

/-- The rays of an origin are among those that are not another origin's. -/
theorem own_eq_filter_others {o o' : IVec3} (h : o' ≠ o) (lm : LightMap) (x : IVec3) :
    lm.own o' x = (lm.others o x).filter (·.origin = o') := by
  rw [own, others, List.filter_filter]
  apply List.filter_congr
  intro r _
  by_cases hr : r.origin = o' <;> simp [hr, h]

/-- What leaves the other origins' rays alone leaves each other origin's rays alone. -/
theorem own_congr {o o' : IVec3} (h : o' ≠ o) {lm lm' : LightMap} {x : IVec3}
    (hx : lm'.others o x = lm.others o x) : lm'.own o' x = lm.own o' x := by
  rw [own_eq_filter_others h, own_eq_filter_others h, hx]

theorem Single.own_eq {lm : LightMap} {o : IVec3} (h : lm.Single o) (x : IVec3) :
    lm.own o x = (lm.ray? o x).toList := by
  have := h x
  rw [ray?]
  match hl : lm.own o x with
  | [] => rfl
  | [r] => rfl
  | r :: r' :: l => rw [hl] at this; simp at this

theorem ray?_eq_none_iff {lm : LightMap} {o x : IVec3} : lm.ray? o x = none ↔ lm.own o x = [] := by
  rw [ray?, List.head?_eq_none_iff]

theorem mem_own {lm : LightMap} {o x : IVec3} {r : LightRay} :
    r ∈ lm.own o x ↔ r ∈ lm.rays x ∧ r.origin = o := by simp [own]

theorem origin_of_ray? {lm : LightMap} {o x : IVec3} {r : LightRay} (h : lm.ray? o x = some r) :
    r.origin = o := by
  have := List.mem_of_mem_head? (Option.mem_def.mpr h)
  exact (mem_own.mp this).2

theorem mem_rays_of_ray? {lm : LightMap} {o x : IVec3} {r : LightRay} (h : lm.ray? o x = some r) :
    r ∈ lm.rays x := by
  have := List.mem_of_mem_head? (Option.mem_def.mpr h)
  exact (mem_own.mp this).1

/-- With one ray to an origin, a ray in a cell is the ray of its origin there. -/
theorem Single.ray?_eq_some {lm : LightMap} {x : IVec3} {r : LightRay} (h : lm.Single r.origin)
    (hr : r ∈ lm.rays x) : lm.ray? r.origin x = some r := by
  have hm : r ∈ lm.own r.origin x := mem_own.mpr ⟨hr, rfl⟩
  rw [h.own_eq] at hm
  exact Option.mem_toList.mp hm

/-- The color that shows depends on the origin's own rays alone. -/
theorem existingValue_eq_foldl_own (lm : LightMap) (o x : IVec3) :
    lm.existingValue o x = (lm.own o x).foldl (fun _ r => r.value) LightColor.ZERO := by
  rw [existingValue, own, List.foldl_filter]
  simp only [decide_eq_true_eq]

theorem Single.existingValue_eq {lm : LightMap} {o : IVec3} (h : lm.Single o) (x : IVec3) :
    lm.existingValue o x = (lm.ray? o x).elim LightColor.ZERO LightRay.value := by
  rw [existingValue_eq_foldl_own, h.own_eq]
  cases lm.ray? o x <;> rfl

/-! ### Writing a ray -/

/-- Give the first ray of the origin the brighter channels of `value`, or add a ray. -/
def shineRays (o : IVec3) (value : LightColor) : List LightRay → List LightRay
  | [] => [⟨value, o, []⟩]
  | r :: rs => if r.origin = o then { r with value := r.value.sup value } :: rs else r :: shineRays o value rs

/-- Let `value` shine in the cell `s`, as light of the origin `o`. -/
def shine (lm : LightMap) (s o : IVec3) (value : LightColor) : LightMap :=
  lm.insert s ⟨shineRays o value (lm.rays s)⟩

/-- Note that the first ray of the origin goes on to the side, once. -/
def addDirectionRays (o : IVec3) (side : CubeSide) : List LightRay → List LightRay
  | [] => []
  | r :: rs =>
    if r.origin = o then
      (if side ∈ r.directions then r else { r with directions := r.directions ++ [side] }) :: rs
    else r :: addDirectionRays o side rs

/-- Note that the light of the origin `o` goes on from the cell `s` to the side. -/
def addDirection (lm : LightMap) (s o : IVec3) (side : CubeSide) : LightMap :=
  lm.insert s ⟨addDirectionRays o side (lm.rays s)⟩

/-- The ray of the origin, brightened by `value`. -/
def brighten (o : IVec3) (value : LightColor) : Option LightRay → LightRay
  | none => ⟨value, o, []⟩
  | some r => { r with value := r.value.sup value }

/-- The ray with the side among its directions. -/
def withDirection (side : CubeSide) (r : LightRay) : LightRay :=
  if side ∈ r.directions then r else { r with directions := r.directions ++ [side] }

@[simp] theorem withDirection_value (side : CubeSide) (r : LightRay) :
    (withDirection side r).value = r.value := by unfold withDirection; split <;> rfl

@[simp] theorem withDirection_origin (side : CubeSide) (r : LightRay) :
    (withDirection side r).origin = r.origin := by unfold withDirection; split <;> rfl

theorem mem_withDirection {side side' : CubeSide} {r : LightRay} :
    side' ∈ (withDirection side r).directions ↔ side' = side ∨ side' ∈ r.directions := by
  unfold withDirection
  split
  · next h =>
    constructor
    · exact Or.inr
    · rintro (rfl | h')
      · exact h
      · exact h'
  · simp [or_comm]

theorem own_shineRays (o : IVec3) (v : LightColor) (l : List LightRay) :
    (shineRays o v l).filter (·.origin = o) =
      brighten o v (l.filter (·.origin = o)).head? :: (l.filter (·.origin = o)).tail := by
  induction l with
  | nil => simp [shineRays, brighten]
  | cons r rs ih =>
    by_cases h : r.origin = o
    · simp [shineRays, h, brighten]
    · simp [shineRays, h, ih]

theorem others_shineRays (o : IVec3) (v : LightColor) (l : List LightRay) :
    (shineRays o v l).filter (·.origin ≠ o) = l.filter (·.origin ≠ o) := by
  induction l with
  | nil => simp [shineRays]
  | cons r rs ih =>
    simp only [ne_eq, decide_not] at ih ⊢
    by_cases h : r.origin = o
    · simp [shineRays, h]
    · simp [shineRays, h, ih]

theorem own_addDirectionRays (o : IVec3) (side : CubeSide) (l : List LightRay) :
    (addDirectionRays o side l).filter (·.origin = o) =
      ((l.filter (·.origin = o)).head?.map (withDirection side)).toList ++ (l.filter (·.origin = o)).tail := by
  induction l with
  | nil => simp [addDirectionRays]
  | cons r rs ih =>
    by_cases h : r.origin = o
    · have : (addDirectionRays o side (r :: rs)) = withDirection side r :: rs := by
        simp [addDirectionRays, h, withDirection]
      simp [this, h]
    · simp [addDirectionRays, h, ih]

theorem others_addDirectionRays (o : IVec3) (side : CubeSide) (l : List LightRay) :
    (addDirectionRays o side l).filter (·.origin ≠ o) = l.filter (·.origin ≠ o) := by
  induction l with
  | nil => simp [addDirectionRays]
  | cons r rs ih =>
    simp only [ne_eq, decide_not] at ih ⊢
    by_cases h : r.origin = o
    · have : (addDirectionRays o side (r :: rs)) = withDirection side r :: rs := by
        simp [addDirectionRays, h, withDirection]
      simp [this, h]
    · simp [addDirectionRays, h, ih]

/-- Shining leaves the other origins' rays alone. -/
theorem others_shine (lm : LightMap) (s o : IVec3) (v : LightColor) (x : IVec3) :
    (lm.shine s o v).others o x = lm.others o x := by
  rw [others, shine, rays_insert]
  split
  · next h => subst h; exact others_shineRays o v _
  · rfl

theorem others_addDirection (lm : LightMap) (s o : IVec3) (side : CubeSide) (x : IVec3) :
    (lm.addDirection s o side).others o x = lm.others o x := by
  rw [others, addDirection, rays_insert]
  split
  · next h => subst h; exact others_addDirectionRays o side _
  · rfl

theorem own_shine (lm : LightMap) (s o : IVec3) (v : LightColor) (x : IVec3) :
    (lm.shine s o v).own o x =
      if x = s then brighten o v (lm.ray? o s) :: (lm.own o s).tail else lm.own o x := by
  rw [own, shine, rays_insert]
  split
  · exact own_shineRays o v _
  · rfl

theorem own_addDirection (lm : LightMap) (s o : IVec3) (side : CubeSide) (x : IVec3) :
    (lm.addDirection s o side).own o x =
      if x = s then ((lm.ray? o s).map (withDirection side)).toList ++ (lm.own o s).tail else lm.own o x := by
  rw [own, addDirection, rays_insert]
  split
  · exact own_addDirectionRays o side _
  · rfl

/-- After shining, the cell's ray is brighter and the other cells' are as they were. -/
theorem ray?_shine (lm : LightMap) (s o : IVec3) (v : LightColor) (x : IVec3) :
    (lm.shine s o v).ray? o x = if x = s then some (brighten o v (lm.ray? o s)) else lm.ray? o x := by
  rw [ray?, own_shine]
  split <;> rfl

theorem ray?_addDirection (lm : LightMap) (s o : IVec3) (side : CubeSide) (x : IVec3) :
    (lm.addDirection s o side).ray? o x =
      if x = s then (lm.ray? o s).map (withDirection side) else lm.ray? o x := by
  rw [ray?, own_addDirection]
  split
  · match hl : lm.own o s with
    | [] => simp [ray?, hl]
    | r :: l => simp [ray?, hl]
  · rfl

theorem Single.shine {lm : LightMap} {o : IVec3} (h : lm.Single o) (s : IVec3) (v : LightColor) :
    (lm.shine s o v).Single o := by
  intro x
  rw [own_shine]
  split
  · have := h s
    simp only [List.length_cons, List.length_tail]
    omega
  · exact h x

theorem Single.addDirection {lm : LightMap} {o : IVec3} (h : lm.Single o) (s : IVec3) (side : CubeSide) :
    (lm.addDirection s o side).Single o := by
  intro x
  rw [own_addDirection]
  split
  · have := h s
    match hl : lm.own o s with
    | [] => simp [ray?, hl]
    | r :: l => rw [hl] at this; simpa [ray?, hl] using this
  · exact h x

/-- A cell has a ray from an origin, of some color. -/
def Ray (lm : LightMap) (x o : IVec3) (v : LightColor) : Prop := ∃ r ∈ lm.rays x, r.origin = o ∧ r.value = v

theorem ray_iff_own {lm : LightMap} {x o : IVec3} {v : LightColor} :
    lm.Ray x o v ↔ ∃ r ∈ lm.own o x, r.value = v := by
  constructor
  · rintro ⟨r, hr, ho, hv⟩
    exact ⟨r, mem_own.mpr ⟨hr, ho⟩, hv⟩
  · rintro ⟨r, hr, hv⟩
    exact ⟨r, (mem_own.mp hr).1, (mem_own.mp hr).2, hv⟩

end LightMap

end Distgard
