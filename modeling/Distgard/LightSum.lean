import Distgard.CubeMesh
import Distgard.Light.BreadthFirst
import Mathlib.Algebra.Order.BigOperators.Group.List
import Mathlib.Algebra.Order.Group.Nat
import Mathlib.Data.Finset.Prod

/-!
# Sums of light

The light in a cell is the sum of its rays, channel by channel, in numbers of 16 bits, and what
exceeds fifteen is cut off at the end. That no sum leaves the 16 bits rests on the passes: they
leave a cell one ray to an origin, and light of at most fifteen, which loses two with every step
and goes on while more than one is left, comes seven steps far. So the rays in a cell come from
different cells of a box around it.

## What is proved

* `sum_map_le` — a sum over different keys of a finite set is at most so many times the largest
  summand.
* `near_of_sheds` — what a light block sheds is at most fifteen, and at most seven steps away.
* `Lightpassed.near` — so are the rays of every lightmap that passes make.
* `sum_exact` — no sum over rays of a cell leaves the 16 bits.
-/

namespace Distgard

open Lib LightMap

/-! ### Sums over different keys -/

/-- A sum over a list whose keys are different elements of a finite set. -/
theorem sum_map_le {α β : Type*} [DecidableEq β] {l : List α} {key : α → β} {s : Finset β} {f : α → ℕ} {n : ℕ}
    (hnodup : (l.map key).Nodup) (hmem : ∀ a ∈ l, key a ∈ s) (hle : ∀ a ∈ l, f a ≤ n) :
    (l.map f).sum ≤ s.card * n := by
  have hlength : l.length ≤ s.card := by
    rw [← List.length_map (f := key), ← List.toFinset_card_of_nodup hnodup]
    apply Finset.card_le_card
    intro b hb
    obtain ⟨a, ha, rfl⟩ := List.mem_map.mp (List.mem_toFinset.mp hb)
    exact hmem a ha
  have hsum : (l.map f).sum ≤ l.length * n := by
    have hall : ∀ m ∈ l.map f, m ≤ n := by
      intro m hm
      obtain ⟨a, ha, rfl⟩ := List.mem_map.mp hm
      exact hle a ha
    have hbound := List.sum_le_card_nsmul (l.map f) n hall
    rwa [List.length_map, nsmul_eq_mul] at hbound
  exact hsum.trans (Nat.mul_le_mul_right n hlength)

/-! ### How far light comes -/

/-- The number of steps from a cell to another, in the open. -/
def IVec3.steps (a b : IVec3) : ℕ := (a.x - b.x).natAbs + (a.y - b.y).natAbs + (a.z - b.z).natAbs

/-- One step leads no farther than one on. -/
theorem Adjacent.steps_le {y x : IVec3} (h : Adjacent y x) (o : IVec3) : x.steps o ≤ y.steps o + 1 := by
  obtain ⟨side, rfl⟩ := h
  simp only [IVec3.steps, IVec3.add_x, IVec3.add_y, IVec3.add_z]
  cases side <;> simp only [CubeSide.offset] <;> omega

/-- The color that no light exceeds. -/
def brightestColor : LightColor := ⟨15, 15, 15⟩

theorem getLightColor_le (block : UInt32) : Blocks.getLightColor block ≤ brightestColor := by
  unfold Blocks.getLightColor
  split <;> exact ⟨by decide, by decide, by decide⟩

/-- A light that still spreads has lost no more than fourteen. -/
theorem steps_of_spreads {c : LightColor} (h : c ≤ brightestColor) {k : ℕ} (hspreads : (c.fadeN k).spreads = true) :
    k ≤ 6 := by
  have hlive : 1 < c.x - 2 * k ∨ 1 < c.y - 2 * k ∨ 1 < c.z - 2 * k := by
    simpa [LightColor.spreads, LightColor.fadeN, or_assoc] using hspreads
  simp only [brightestColor, LightColor.le_def] at h
  omega

/-- What a light block sheds is at most fifteen, and comes at most seven steps far. -/
theorem near_of_sheds {blockat : IVec3 → UInt32} {o x : IVec3} {v : LightColor} (h : Sheds blockat o x v) :
    v ≤ brightestColor ∧ x.steps o ≤ 7 := by
  obtain ⟨-, k, harrives, rfl⟩ := h
  have hcolor := getLightColor_le (blockat o)
  refine ⟨?_, ?_⟩
  · have hfaded := LightColor.fadeN_anti (Blocks.getLightColor (blockat o)) (Nat.zero_le k)
    rw [LightColor.fadeN_zero] at hfaded
    exact LightColor.le_trans hfaded hcolor
  · have hstart : o.steps o = 0 := by simp [IVec3.steps]
    have hadj : ∀ y x : IVec3, Adjacent y x → x.steps o ≤ y.steps o + 1 := fun y x hnext => hnext.steps_le o
    have hsteps : x.steps o ≤ k := harrives.reach.rank_le (fun y => y.steps o) hstart hadj
    rcases (arrives_iff_distance.mp harrives).2 with rfl | hlive
    · omega
    · have := steps_of_spreads hcolor hlive
      omega

variable {lm : LightMap}

/-- **The rays of every lightmap that passes make** are at most fifteen, and come from at most seven
steps away. -/
theorem Lightpassed.near (h : Lightpassed lm) {x : IVec3} {r : LightRay} (hr : r ∈ lm.rays x) :
    r.value ≤ brightestColor ∧ x.steps r.origin ≤ 7 := by
  induction h with
  | dark =>
    rw [rays_empty] at hr
    cases hr
  | pass e cs pos hlit ih =>
    have hown := mem_own.mpr ⟨hr, rfl⟩
    rw [own_lightpassOnChunk e hlit.wellLit] at hown
    by_cases hpos : spotToChunkPos r.origin = pos
    · rw [if_pos hpos] at hown
      exact near_of_sheds (sheds_iff.mp ⟨r, hown, rfl⟩)
    · rw [if_neg hpos] at hown
      exact ih (mem_own.mp hown).1

/-- The rays in a cell come from different cells. -/
theorem nodup_origins (h : ∀ o, lm.Single o) (x : IVec3) : ((lm.rays x).map LightRay.origin).Nodup := by
  apply List.nodup_iff_count_le_one.mpr
  intro o
  have hown := h o x
  rw [own, ← List.countP_eq_length_filter] at hown
  rw [List.count_eq_countP, List.countP_map]
  refine (List.countP_congr ?_).le.trans hown
  simp

/-! ### The sums -/

/-- The cells around a cell, seven to each side. -/
def box (x : IVec3) : Finset IVec3 :=
  (Finset.range 15 ×ˢ Finset.range 15 ×ˢ Finset.range 15).image
    fun p => ⟨x.x - 7 + p.1, x.y - 7 + p.2.1, x.z - 7 + p.2.2⟩

theorem card_box_le (x : IVec3) : (box x).card ≤ 3375 := by
  refine Finset.card_image_le.trans ?_
  simp only [Finset.card_product, Finset.card_range]
  decide

theorem mem_box_of_steps {x o : IVec3} (h : x.steps o ≤ 7) : o ∈ box x := by
  rw [IVec3.steps] at h
  refine Finset.mem_image.mpr ⟨((o.x - x.x + 7).toNat, (o.y - x.y + 7).toNat, (o.z - x.z + 7).toNat), ?_, ?_⟩
  · simp only [Finset.mem_product, Finset.mem_range]
    omega
  · ext <;> simp only <;> omega

/-- The rays of a cell, as many as have been added up, make less than 16 bits hold. -/
theorem sum_take_lt (h : Lightpassed lm) (x : IVec3) (channel : LightColor → ℕ)
    (hchannel : ∀ v, v ≤ brightestColor → channel v ≤ 15) (n : ℕ) :
    (((lm.rays x).take n).map fun ray => channel ray.value).sum < 2 ^ 16 := by
  have hnodup : (((lm.rays x).take n).map LightRay.origin).Nodup := by
    rw [List.map_take]
    exact (nodup_origins (fun o => (h.wellLit.traced o).single) x).sublist (List.take_sublist n _)
  have hnear := fun (r : LightRay) (hr : r ∈ (lm.rays x).take n) => h.near (List.mem_of_mem_take hr)
  calc (((lm.rays x).take n).map fun ray => channel ray.value).sum
      ≤ (box x).card * 15 := sum_map_le hnodup (fun r hr => mem_box_of_steps (hnear r hr).2)
        fun r hr => hchannel _ (hnear r hr).1
    _ ≤ 3375 * 15 := Nat.mul_le_mul_right 15 (card_box_le x)
    _ < 2 ^ 16 := by decide

/-- **Sums of light do not overflow**: in every lightmap that passes have made, each over some world,
a cell has at most one ray of an origin; each ray is at most fifteen in every channel, and comes
from at most seven steps away; whatever part of the rays has been added up, the sums have 16 bits;
and so what is drawn is the sum of the rays, cut off at fifteen. -/
theorem sum_exact (lm : LightMap) (h : Lightpassed lm) (x : IVec3) :
    (∀ o, (lm.own o x).length ≤ 1) ∧
    (∀ r ∈ lm.rays x, (r.value.x ≤ 15 ∧ r.value.y ≤ 15 ∧ r.value.z ≤ 15) ∧
      (x.x - r.origin.x).natAbs + (x.y - r.origin.y).natAbs + (x.z - r.origin.z).natAbs ≤ 7) ∧
    (∀ n, let added := (lm.rays x).take n
      (added.map fun ray => ray.value.x).sum < 2 ^ 16 ∧ (added.map fun ray => ray.value.y).sum < 2 ^ 16 ∧
        (added.map fun ray => ray.value.z).sum < 2 ^ 16) ∧
    lm.sum x = ⟨min ((lm.rays x).map fun ray => ray.value.x).sum 15,
      min ((lm.rays x).map fun ray => ray.value.y).sum 15, min ((lm.rays x).map fun ray => ray.value.z).sum 15⟩ ∧
    (lm.sum x).x ≤ 15 ∧ (lm.sum x).y ≤ 15 ∧ (lm.sum x).z ≤ 15 := by
  have hred := sum_take_lt h x LightColor.x fun _ hv => hv.1
  have hgreen := sum_take_lt h x LightColor.y fun _ hv => hv.2.1
  have hblue := sum_take_lt h x LightColor.z fun _ hv => hv.2.2
  refine ⟨fun o => (h.wellLit.traced o).single x, fun r hr => h.near hr, fun n => ⟨hred n, hgreen n, hblue n⟩, ?_,
    lm.sum_le x⟩
  have hall := List.take_length (l := lm.rays x)
  have hallred := hred (lm.rays x).length
  have hallgreen := hgreen (lm.rays x).length
  have hallblue := hblue (lm.rays x).length
  rw [hall] at hallred hallgreen hallblue
  rw [LightMap.sum, Nat.mod_eq_of_lt hallred, Nat.mod_eq_of_lt hallgreen, Nat.mod_eq_of_lt hallblue]

/-- The torch lights the cell above it with one ray, and what is drawn there is at most fifteen. -/
theorem sum_exact_torchWorld :
    let lm := (torchWorld.lightpassOnChunk .plain ⟨0, 0⟩).lightmap
    (lm.own ⟨3, 5, 3⟩ ⟨3, 6, 3⟩).length ≤ 1 ∧ (lm.sum ⟨3, 6, 3⟩).x ≤ 15 :=
  have hsum := sum_exact _ (.pass .plain torchWorld ⟨0, 0⟩ .dark) ⟨3, 6, 3⟩
  ⟨hsum.1 ⟨3, 5, 3⟩, hsum.2.2.2.2.1⟩

end Distgard
