import Distgard.Light.Implicated

/-!
# Light as distance

`propagateLightOrigin` works with a stack, lights cells by detours first and corrects them
later. What it ends with can be said without the stack: the light in a cell is that of the
shortest way to it. A way leads from cell to cell through cells that let light pass; only the
last may be opaque.

## What is proved

* `arrives_iff_distance` — the wave of a color arrives in a cell at the cell's distance, if it
  still spreads one step before.
* `propagate_breadthFirst` — spreading light over a lightmap without rays of the origin gives a
  cell at distance `d` one ray of the color less `2 * d`, if the light still spreads one step
  before, and gives no ray to any other cell; the rays of other origins are kept; and visiting
  the neighbors in another order shows the same colors and notes the same chunks.
* `depropagate_exact` — taking back the light of an origin from a lightmap that passes have made
  leaves no ray of it, and the rays of every other origin.
-/

namespace Distgard

open Lib LightMap

/-- The cell is at distance `d` from the origin, along ways that let light pass. -/
def Distance (blockat : IVec3 → UInt32) (origin : IVec3) (d : ℕ) (x : IVec3) : Prop :=
  Wave.Arrive Adjacent (fun _ => True) (fun y => goinghere blockat origin y = true) origin d x

/-- A color that still spreads after `k` steps spreads after fewer. -/
theorem spreads_fadeN_anti (value : LightColor) (j k : ℕ) (h : j ≤ k) (hk : (value.fadeN k).spreads = true) :
    (value.fadeN j).spreads = true :=
  LightColor.spreads_mono (LightColor.fadeN_anti value h) hk

section

variable {blockat : IVec3 → UInt32} {origin : IVec3} {value : LightColor}

/-- The wave arrives at the distance of a cell, if it spreads one step before. -/
theorem arrives_iff_distance {d : ℕ} {x : IVec3} :
    Arrives blockat origin value d x ↔
      Distance blockat origin d x ∧ (d = 0 ∨ (value.fadeN (d - 1)).spreads = true) :=
  Wave.arrive_iff (spreads_fadeN_anti value)

/-- The light in a cell at distance `d` that is bright enough to get there. -/
def lightAt (value : LightColor) (d : ℕ) : List LightColor :=
  if d = 0 ∨ (value.fadeN (d - 1)).spreads = true then [value.fadeN d] else []

variable {sides : List CubeSide} {lm : LightMap}

/-- The colors in a cell at a distance. -/
theorem values_of_distance (hall : ∀ side, side ∈ sides) (hlm : ∀ x, lm.own origin x = []) (imp : HashSet IVec2)
    {d : ℕ} {x : IVec3} (hd : Distance blockat origin d x) :
    ((propagateWith blockat sides origin lm origin value imp).1.own origin x).map LightRay.value = lightAt value d := by
  have hdark : ∀ x, lm.ray? origin x = none := fun x => ray?_eq_none_iff.mpr (hlm x)
  have harrive : ∀ v, (∃ r, (propagateWith blockat sides origin lm origin value imp).1.ray? origin x = some r ∧ r.value = v) ↔
      ∃ k, Arrives blockat origin value k x ∧ v = value.fadeN k := propagate_arrive hall hdark x
  rw [(propagate_single hall hdark).own_eq]
  unfold lightAt
  split
  · next hlive =>
    obtain ⟨r, hr, hv⟩ := (harrive _).mpr ⟨d, arrives_iff_distance.mpr ⟨hd, hlive⟩, rfl⟩
    rw [hr]
    exact congrArg (fun v => [v]) hv
  · next hdead =>
    match hr : (propagateWith blockat sides origin lm origin value imp).1.ray? origin x with
    | none => rfl
    | some r =>
      obtain ⟨k, hk, -⟩ := (harrive r.value).mp ⟨r, hr, rfl⟩
      obtain ⟨hk, hlive⟩ := arrives_iff_distance.mp hk
      exact absurd (hk.unique hd ▸ hlive) hdead

/-- A cell that no way leads to stays dark. -/
theorem own_of_apart (hall : ∀ side, side ∈ sides) (hlm : ∀ x, lm.own origin x = []) (imp : HashSet IVec2) {x : IVec3}
    (hx : ∀ d, ¬ Distance blockat origin d x) :
    (propagateWith blockat sides origin lm origin value imp).1.own origin x = [] := by
  have hdark : ∀ x, lm.ray? origin x = none := fun x => ray?_eq_none_iff.mpr (hlm x)
  rw [← ray?_eq_none_iff, Option.eq_none_iff_forall_not_mem]
  intro r hr
  obtain ⟨k, hk, -⟩ := (propagate_arrive hall hdark x r.value).mp ⟨r, hr, rfl⟩
  exact hx k (arrives_iff_distance.mp hk).1

/-- What two orders of the neighbors have in common. -/
structure SameLight (origin : IVec3) (s t : LightMap × HashSet IVec2) : Prop where
  /-- The colors of the origin. -/
  values : ∀ x, (s.1.own origin x).map LightRay.value = (t.1.own origin x).map LightRay.value
  /-- The rays of the other origins. -/
  others : ∀ x, s.1.others origin x = t.1.others origin x
  /-- The chunks noted. -/
  chunks : ∀ key, key ∈ s.2 ↔ key ∈ t.2

/-- The order in which neighbors are visited makes no difference. -/
theorem propagate_order (blockat : IVec3 → UInt32) (value : LightColor) {sides' : List CubeSide}
    (hall : ∀ side, side ∈ sides) (hall' : ∀ side, side ∈ sides') (hlm : ∀ x, lm.own origin x = [])
    (imp : HashSet IVec2) :
    SameLight origin (propagateWith blockat sides origin lm origin value imp)
      (propagateWith blockat sides' origin lm origin value imp) := by
  have hdark : ∀ x, lm.ray? origin x = none := fun x => ray?_eq_none_iff.mpr (hlm x)
  refine ⟨?_, ?_, ?_⟩
  · intro x
    by_cases hx : ∃ d, Distance blockat origin d x
    · obtain ⟨d, hd⟩ := hx
      rw [values_of_distance hall hlm imp hd, values_of_distance hall' hlm imp hd]
    · push Not at hx
      rw [own_of_apart hall hlm imp hx, own_of_apart hall' hlm imp hx]
  · intro x
    rw [propagate_frame, propagate_frame]
  · intro key
    rw [mem_imp_propagate blockat value hall hdark, mem_imp_propagate blockat value hall' hdark]

end

/-- **Light is distance**: from a lightmap without rays of the origin, the loop ends; a cell at
distance `d` then has one ray of the origin, of the color less `2 * d` in every channel, if `d`
is `0` or the light one step before exceeds `1` in some channel, and no ray otherwise; a cell
that no way leads to has none; other origins keep their rays; and so it is in whatever order the
neighbors are visited. -/
theorem propagate_breadthFirst (blockat : IVec3 → UInt32) (origin : IVec3) (lm : LightMap) (c : LightColor)
    (imp : HashSet IVec2) (hlm : ∀ x, lm.own origin x = []) :
    (∃ k t, Loop.Ends (propStep blockat CubeSide.all origin) k ⟨[(c, origin)], [origin], lm, imp⟩ t ∧
      propagateLightOrigin blockat lm origin origin c imp = (t.lightmap, t.imp)) ∧
    (∀ x d, Distance blockat origin d x →
      (d = 0 ∨ 1 < c.x - 2 * (d - 1) ∨ 1 < c.y - 2 * (d - 1) ∨ 1 < c.z - 2 * (d - 1)) →
      ∃ r, (propagateLightOrigin blockat lm origin origin c imp).1.own origin x = [r] ∧
        r.value = ⟨c.x - 2 * d, c.y - 2 * d, c.z - 2 * d⟩) ∧
    (∀ x, (∀ d, Distance blockat origin d x →
        ¬ (d = 0 ∨ 1 < c.x - 2 * (d - 1) ∨ 1 < c.y - 2 * (d - 1) ∨ 1 < c.z - 2 * (d - 1))) →
      (propagateLightOrigin blockat lm origin origin c imp).1.own origin x = []) ∧
    (∀ x, (propagateLightOrigin blockat lm origin origin c imp).1.others origin x = lm.others origin x) ∧
    ∀ sides : List CubeSide, (∀ side, side ∈ sides) →
      SameLight origin (propagateWith blockat sides origin lm origin c imp)
        (propagateLightOrigin blockat lm origin origin c imp) := by
  have hlive : ∀ d, ((c.fadeN (d - 1)).spreads = true) ↔
      (1 < c.x - 2 * (d - 1) ∨ 1 < c.y - 2 * (d - 1) ∨ 1 < c.z - 2 * (d - 1)) := by
    intro d
    simp [LightColor.spreads, LightColor.fadeN, or_assoc]
  refine ⟨?_, ?_, ?_, ?_, ?_⟩
  · obtain ⟨k, hk⟩ := Loop.exec_ends (propStep_decreases blockat CubeSide.all origin)
      ⟨[(c, origin)], [origin], lm, imp⟩
    exact ⟨k, _, hk, rfl⟩
  · intro x d hd hbright
    have hv : ((propagateLightOrigin blockat lm origin origin c imp).1.own origin x).map LightRay.value = lightAt c d :=
      values_of_distance CubeSide.mem_all hlm imp hd
    rw [lightAt, if_pos (hbright.imp_right (hlive d).mpr)] at hv
    obtain ⟨r, hr, hval⟩ := List.map_eq_singleton_iff.mp hv
    exact ⟨r, hr, hval⟩
  · intro x hfar
    by_cases hx : ∃ d, Distance blockat origin d x
    · obtain ⟨d, hd⟩ := hx
      have hv : ((propagateLightOrigin blockat lm origin origin c imp).1.own origin x).map LightRay.value =
          lightAt c d := values_of_distance CubeSide.mem_all hlm imp hd
      rw [lightAt, if_neg fun h => hfar d hd (h.imp_right (hlive d).mp)] at hv
      exact List.map_eq_nil_iff.mp hv
    · push Not at hx
      exact own_of_apart CubeSide.mem_all hlm imp hx
  · exact propagate_frame blockat CubeSide.all origin lm origin c imp
  · intro sides hall
    exact propagate_order blockat c hall CubeSide.mem_all hlm imp

/-- In the open the cell above a torch is one step away and gets its light less two. -/
theorem propagate_breadthFirst_torch :
    ∃ r, (propagateLightOrigin (fun _ => 0) ∅ ⟨3, 5, 3⟩ ⟨3, 5, 3⟩ ⟨10, 8, 1⟩ []).1.own ⟨3, 5, 3⟩ ⟨3, 6, 3⟩ = [r] ∧
      r.value = ⟨8, 6, 0⟩ := by
  have hadj : Adjacent ⟨3, 5, 3⟩ ⟨3, 6, 3⟩ := ⟨.TOP, by decide⟩
  have hd : Distance (fun _ => 0) ⟨3, 5, 3⟩ 1 ⟨3, 6, 3⟩ := by
    refine ⟨.step .start (by decide) trivial hadj, fun j hj => ?_⟩
    cases hj with
    | step _ _ _ _ => exact Nat.le_add_left 1 _
  exact (propagate_breadthFirst (fun _ => 0) ⟨3, 5, 3⟩ ∅ ⟨10, 8, 1⟩ [] fun x => by simp [own]).2.1 ⟨3, 6, 3⟩ 1 hd
    (by decide)

/-! ### Taking light back exactly -/

/-- **One origin is removed, and only one**: over every lightmap that passes have made, taking
back the light of an origin ends; no cell has a ray of the origin then, and the rays of every
other origin are unchanged. -/
theorem depropagate_exact (lm : LightMap) (h : Lightpassed lm) (origin : IVec3) (imp : HashSet IVec2) :
    (∃ k t, Loop.Ends (depropStep origin) k ⟨[origin], lm, imp⟩ t ∧
      depropagateLightOrigin origin lm imp = (t.lightmap, t.imp)) ∧
    (∀ x, (depropagateLightOrigin origin lm imp).1.own origin x = []) ∧
    (∀ x, (depropagateLightOrigin origin lm imp).1.others origin x = lm.others origin x) ∧
    ∀ o, o ≠ origin → ∀ x, (depropagateLightOrigin origin lm imp).1.own o x = lm.own o x := by
  have htraced := h.wellLit.traced origin
  refine ⟨?_, depropagate_own htraced.single htraced.linked imp, depropagate_frame origin lm imp, ?_⟩
  · obtain ⟨k, hk⟩ := Loop.exec_ends (depropStep_decreases origin) ⟨[origin], lm, imp⟩
    exact ⟨k, _, hk, rfl⟩
  · intro o ho x
    exact own_congr ho (depropagate_frame origin lm imp x)

/-- The torch's light is taken back from the cell above it. -/
theorem depropagate_exact_torchWorld :
    (depropagateLightOrigin ⟨3, 5, 3⟩ (torchWorld.lightpassOnChunk .plain ⟨0, 0⟩).lightmap []).1.own ⟨3, 5, 3⟩
      ⟨3, 6, 3⟩ = [] :=
  (depropagate_exact _ (.pass .plain torchWorld ⟨0, 0⟩ .dark) ⟨3, 5, 3⟩ []).2.1 ⟨3, 6, 3⟩

end Distgard
