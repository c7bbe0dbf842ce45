import Distgard.EditMesh
import Distgard.Light.Implicated

/-!
# Meshes after a pass

The vertices of a face have the light of the cell in front of it, and this cell may belong to
another chunk than the face. A pass asks for the chunks that the light comes to; a chunk whose
faces only look at cells that it comes to is not asked for.

## What is proved

* `sum_lightpassOnChunk` — the light that is drawn after a pass: that of the rays from other chunks,
  and of the light blocks of the chunk.
* `lightpass_queues_iff` — a pass asks for all other chunks with a face whose light changes exactly
  when of the chunks that the light does not touch no face towards another chunk looks at a cell
  whose light changes.
-/

namespace Distgard

open Lib LightMap

/-! ### The light that is drawn -/

/-- Light of several colors, as it is drawn. -/
def LightColor.capped (colors : List LightColor) : LightColor where
  x := min ((colors.map LightColor.x).sum % 2 ^ 16) 15
  y := min ((colors.map LightColor.y).sum % 2 ^ 16) 15
  z := min ((colors.map LightColor.z).sum % 2 ^ 16) 15

theorem LightMap.sum_eq_capped (lm : LightMap) (x : IVec3) :
    lm.sum x = LightColor.capped ((lm.rays x).map LightRay.value) := by
  simp only [LightMap.sum, LightColor.capped, List.map_map, Function.comp_def]

/-- Colors whose channels have the same sums are drawn alike. -/
theorem capped_congr {colors colors' : List LightColor}
    (h : ∀ channel : LightColor → ℕ, channel .ZERO = 0 → (colors.map channel).sum = (colors'.map channel).sum) :
    LightColor.capped colors = LightColor.capped colors' := by
  unfold LightColor.capped
  rw [h LightColor.x rfl, h LightColor.y rfl, h LightColor.z rfl]

/-- The rays whose origins satisfy a condition are the same when those of each such origin are. -/
theorem perm_rays {lm lm' : LightMap} {x : IVec3} (P : IVec3 → Prop) [DecidablePred P]
    (h : ∀ o, P o → lm'.own o x = lm.own o x) :
    ((lm'.rays x).filter fun r => P r.origin).Perm ((lm.rays x).filter fun r => P r.origin) := by
  rw [List.perm_iff_count]
  intro r
  by_cases hr : P r.origin
  · have hown : ∀ lm : LightMap, (lm.own r.origin x).count r = (lm.rays x).count r := by
      intro lm
      exact List.count_filter (by simp)
    rw [List.count_filter (by simpa using hr), List.count_filter (by simpa using hr), ← hown, ← hown, h _ hr]
  · have hnone : ∀ lm : LightMap, ((lm.rays x).filter fun r => P r.origin).count r = 0 := by
      intro lm
      rw [List.count_eq_zero]
      simp [hr]
    rw [hnone, hnone]

/-- Where the rays of every origin are the same, the same light is drawn. -/
theorem sum_eq_of_own {lm lm' : LightMap} {x : IVec3} (h : ∀ o, lm'.own o x = lm.own o x) : lm'.sum x = lm.sum x := by
  have hperm := perm_rays (fun _ => True) fun o _ => h o
  simp only [decide_true, List.filter_true] at hperm
  rw [sum_eq_capped, sum_eq_capped]
  apply capped_congr
  intro channel _
  exact ((hperm.map _).map _).sum_nat

/-- A sum over a list, key by key. -/
theorem sum_by_key {α κ : Type*} [DecidableEq κ] (key : α → κ) (f : α → ℕ) {keys : List κ} (hnodup : keys.Nodup)
    (l : List α) : (l.map f).sum =
      ((l.filter fun a => key a ∉ keys).map f).sum + (keys.map fun k => ((l.filter fun a => key a = k).map f).sum).sum := by
  induction keys with
  | nil => simp
  | cons k keys ih =>
    obtain ⟨hk, hnodup'⟩ := List.nodup_cons.mp hnodup
    -- what has none of the other keys has this one or none
    have hsplit := (List.filter_append_perm (fun a => key a = k) (l.filter fun a => key a ∉ keys)).map f
    have hthis : (l.filter fun a => key a ∉ keys).filter (fun a => key a = k) = l.filter fun a => key a = k := by
      rw [List.filter_filter]
      apply List.filter_congr
      intro a _
      by_cases ha : key a = k
      · simp [ha, hk]
      · simp [ha]
    have hnone : (l.filter fun a => key a ∉ keys).filter (fun a => !decide (key a = k)) =
        l.filter fun a => key a ∉ k :: keys := by
      rw [List.filter_filter]
      apply List.filter_congr
      intro a _
      simp only [List.mem_cons, not_or, Bool.decide_and, decide_not]
    rw [hthis, hnone, List.map_append] at hsplit
    rw [ih hnodup', ← hsplit.sum_nat, List.sum_append, List.map_cons, List.sum_cons]
    omega

/-! ### The light after a pass -/

/-- The light that the block in a cell sheds into another. -/
noncomputable def shed (blockat : IVec3 → UInt32) (o x : IVec3) : LightColor :=
  open Classical in if h : ∃ v, Sheds blockat o x v then h.choose else .ZERO

theorem shed_eq {blockat : IVec3 → UInt32} {o x : IVec3} {v : LightColor} (h : Sheds blockat o x v) :
    shed blockat o x = v := by
  have hex : ∃ v, Sheds blockat o x v := ⟨v, h⟩
  rw [shed, dif_pos hex]
  -- light arrives once
  obtain ⟨-, j, hj, hv⟩ := hex.choose_spec
  obtain ⟨-, k, hk, rfl⟩ := h
  rw [hv, hj.unique hk]

theorem shed_eq_zero {blockat : IVec3 → UInt32} {o x : IVec3} (h : ∀ v, ¬ Sheds blockat o x v) :
    shed blockat o x = .ZERO := by
  rw [shed, dif_neg]
  rintro ⟨v, hv⟩
  exact h v hv

namespace ChunkSystem

/-- The colors in a cell when the light of a chunk is as its light blocks shed it: those of the rays
from other chunks, and for each cell of the chunk what it sheds. -/
noncomputable def relitColors (cs : ChunkSystem) (pos : IVec2) (x : IVec3) : List LightColor :=
  ((cs.lightmap.rays x).filter fun r => spotToChunkPos r.origin ≠ pos).map LightRay.value ++
    (chunkCells pos).map fun o => shed cs.blockat o x

variable {cs : ChunkSystem} {pos : IVec2}

/-- After a pass, the rays of a cell of the chunk make up the light that it sheds. -/
theorem sum_own (e : Entropy) (h : WellLit cs.lightmap) {o : IVec3} (ho : spotToChunkPos o = pos) (x : IVec3)
    {channel : LightColor → ℕ} (hzero : channel .ZERO = 0) :
    (((cs.lightpassOnChunk e pos).lightmap.own o x).map fun r => channel r.value).sum = channel (shed cs.blockat o x) := by
  have hown := own_lightpassOnChunk e h pos o x
  rw [if_pos ho] at hown
  have hsheds : ∀ v, (∃ r ∈ (cs.lightpassOnChunk e pos).lightmap.own o x, r.value = v) ↔ Sheds cs.blockat o x v := by
    intro v
    rw [hown, sheds_iff]
  have hsingle := ((h.lightpassOnChunk e pos).traced o).single
  rw [hsingle.own_eq] at hsheds ⊢
  cases hr : (cs.lightpassOnChunk e pos).lightmap.ray? o x with
  | none =>
    rw [shed_eq_zero, hzero]
    · rfl
    · intro v hv
      rw [hr] at hsheds
      obtain ⟨r, hr, -⟩ := (hsheds v).mpr hv
      cases hr
  | some r =>
    rw [hr] at hsheds
    rw [shed_eq ((hsheds r.value).mp ⟨r, List.mem_singleton.mpr rfl, rfl⟩)]
    exact List.sum_singleton

/-- **The light that is drawn after a pass**: that of the rays from other chunks, and of the light
blocks of the chunk. -/
theorem sum_lightpassOnChunk (e : Entropy) (h : WellLit cs.lightmap) (x : IVec3) :
    (cs.lightpassOnChunk e pos).lightmap.sum x = LightColor.capped (cs.relitColors pos x) := by
  rw [sum_eq_capped]
  apply capped_congr
  intro channel hzero
  have hlit := h.lightpassOnChunk e pos
  -- an origin in the chunk is one of its cells
  have hcell : ∀ r ∈ (cs.lightpassOnChunk e pos).lightmap.rays x,
      (r.origin ∉ chunkCells pos ↔ spotToChunkPos r.origin ≠ pos) := by
    intro r hr
    have hheight := hlit.height _ _ _ ((hlit.traced r.origin).single.ray?_eq_some hr)
    rw [mem_chunkCells, and_iff_left hheight]
  have hothers := perm_rays (x := x) (fun o => spotToChunkPos o ≠ pos) fun o ho =>
    (own_lightpassOnChunk e h pos o x).trans (if_neg ho)
  rw [List.map_map, sum_by_key LightRay.origin _ (nodup_chunkCells pos), relitColors, List.map_append, List.sum_append,
    List.map_map,
    List.map_map]
  apply congrArg₂ (· + ·)
  · have hfilter : ((cs.lightpassOnChunk e pos).lightmap.rays x).filter (fun r => r.origin ∉ chunkCells pos) =
        ((cs.lightpassOnChunk e pos).lightmap.rays x).filter fun r => spotToChunkPos r.origin ≠ pos := by
      apply List.filter_congr
      intro r hr
      rw [decide_eq_decide, hcell r hr]
    rw [hfilter]
    exact (hothers.map _).sum_nat
  · apply congrArg List.sum
    apply List.map_congr_left
    intro o ho
    exact sum_own e h (mem_chunkCells.mp ho).1 x hzero

/-! ### What waits after a pass -/

/-- A face of a cube of a chunk that is drawn has other light in one lightmap than in another. -/
def LightDiffers (blockat : IVec3 → UInt32) (lightmap lightmap' : LightMap) (pos : IVec2) : Prop :=
  ∃ spot ∈ chunkCells pos, ∃ side, Cubes.faceDrawn blockat spot side = true ∧
    lightmap.sum (spot + side.offset) ≠ lightmap'.sum (spot + side.offset)

/-- The slots of the chunks that a pass asks for. -/
def askedByPass (e : Entropy) (cs : ChunkSystem) (pos : IVec2) : List ℕ :=
  (cs.lightpassOnChunk e pos).userRebuildRequests.drop cs.userRebuildRequests.length

/-- A loaded chunk is asked for when it is another one and the light touches it. -/
theorem requested_askedByPass (e : Entropy) (hb : cs.registry.Bijective) (h : Lightpassed cs.lightmap) {key : IVec2}
    (hkey : key ∈ cs.takencare) (hne : key ≠ pos) : Requested cs (cs.askedByPass e pos) key ↔ cs.Touches pos key := by
  have hasked : cs.askedByPass e pos = cs.slotsOf (e.chunks.iter (cs.implicated e pos)) := by
    rw [askedByPass, userRebuildRequests_lightpassOnChunk]
    exact List.drop_left
  rw [hasked, requested_slotsOf hb, and_iff_right hkey, IterOrder.mem_iter, mem_implicated e h, and_iff_right hne.symm]

/-- Light passes in front of a face that is drawn. -/
theorem passable_of_faceDrawn {blockat : IVec3 → UInt32} {spot : IVec3} {side : CubeSide}
    (h : Cubes.faceDrawn blockat spot side = true) : Blocks.passable (blockat (spot + side.offset)) = true := by
  unfold Cubes.faceDrawn Blocks.showsOpaque Blocks.showsTransparent at h
  unfold Blocks.passable
  simp only [Bool.or_eq_true, Bool.and_eq_true] at h ⊢
  tauto

/-- In a chunk that the light does not touch, no light changes where light passes. -/
theorem sum_of_not_touches (e : Entropy) (h : Lightpassed cs.lightmap) {key : IVec2} (htouches : ¬ cs.Touches pos key)
    {x : IVec3} (hx : spotToChunkPos x = key) (hpass : Blocks.passable (cs.blockat x) = true) :
    (cs.lightpassOnChunk e pos).lightmap.sum x = cs.lightmap.sum x := by
  apply sum_eq_of_own
  intro o
  rw [own_lightpassOnChunk e h.wellLit]
  split
  · next ho =>
    -- neither before nor after is there a ray of the chunk
    have hbefore : cs.lightmap.own o x = [] := by
      rw [List.eq_nil_iff_forall_not_mem]
      intro r hr
      exact htouches ⟨o, ho, x, hx, .inl ⟨r.value, ray_iff_own.mpr ⟨r, hr, rfl⟩⟩⟩
    rw [hbefore, List.eq_nil_iff_forall_not_mem]
    intro r hr
    exact htouches ⟨o, ho, x, hx, .inr ⟨hpass, r.value, sheds_iff.mp ⟨r, hr, rfl⟩⟩⟩
  · rfl

/-- **A pass asks for every other loaded chunk with a face whose light it changes** exactly when, in
each loaded chunk that the light of the chunk does not touch, the faces that are drawn towards other
chunks have the same light in front of them as when the light of the chunk is what its light blocks
shed. The source finds the same chunks at coordinates below `2 ^ 24`. -/
theorem lightpass_queues_iff (e : Entropy) (cs : ChunkSystem) (hb : cs.registry.Bijective) (h : Lightpassed cs.lightmap)
    (c : IVec2) :
    (∀ key ∈ cs.takencare, key ≠ c → LightDiffers cs.blockat cs.lightmap (cs.lightpassOnChunk e c).lightmap key →
        Requested cs (cs.askedByPass e c) key) ↔
      ∀ key ∈ cs.takencare, key ≠ c → ¬ cs.Touches c key → ∀ spot ∈ chunkCells key, ∀ side : CubeSide,
        Cubes.faceDrawn cs.blockat spot side = true → spotToChunkPos (spot + side.offset) ≠ key →
        cs.lightmap.sum (spot + side.offset) = LightColor.capped (cs.relitColors c (spot + side.offset)) := by
  constructor
  · intro hqueues key hkey hne htouches spot hspot side hdrawn _
    by_contra hdiffers
    rw [← sum_lightpassOnChunk e h.wellLit] at hdiffers
    have hasked := hqueues key hkey hne ⟨spot, hspot, side, hdrawn, hdiffers⟩
    rw [requested_askedByPass e hb h hkey hne] at hasked
    exact htouches hasked
  · rintro hcond key hkey hne ⟨spot, hspot, side, hdrawn, hdiffers⟩
    rw [requested_askedByPass e hb h hkey hne]
    by_contra htouches
    apply hdiffers
    by_cases hfront : spotToChunkPos (spot + side.offset) = key
    · exact (sum_of_not_touches e h htouches hfront (passable_of_faceDrawn hdrawn)).symm
    · rw [sum_lightpassOnChunk e h.wellLit]
      exact hcond key hkey hne htouches spot hspot side hdrawn hfront

/-! ### A torch before a wall -/

/-- Two loaded chunks of a terrain, dark, with a torch in the first. -/
def torchOn (naturalBlockat : IVec3 → UInt32) : ChunkSystem :=
  (twoChunks { Externals.plain with perlinNew := fun _ => ⟨naturalBlockat, fun _ => 0⟩ } ⟨1, 0⟩).setBlock ⟨12, 5, 7⟩ 49 true

section

variable (naturalBlockat : IVec3 → UInt32)

theorem bijective_torchOn : (torchOn naturalBlockat).registry.Bijective :=
  bijective_twoChunks { Externals.plain with perlinNew := fun _ => ⟨naturalBlockat, fun _ => 0⟩ } (by decide)

theorem lightpassed_torchOn : Lightpassed (torchOn naturalBlockat).lightmap := .dark

theorem blockat_torchOn (x : IVec3) :
    (torchOn naturalBlockat).blockat x = if x = ⟨12, 5, 7⟩ then 49 else naturalBlockat x := by
  rw [torchOn, blockat_setBlock_user]
  rfl

theorem mem_torchOn {key : IVec2} (h : key ∈ (torchOn naturalBlockat).takencare) : key = ⟨0, 0⟩ ∨ key = ⟨1, 0⟩ :=
  (mem_twoChunks { Externals.plain with perlinNew := fun _ => ⟨naturalBlockat, fun _ => 0⟩ }).mp h

/-- The torch sheds light up to five cells to the east, if light passes there. -/
theorem sheds_torchOn {n : ℕ} (hn : n ≤ 5) (hair : ∀ x : ℤ, 12 < x → x < 12 + n → naturalBlockat ⟨x, 5, 7⟩ = 0) :
    ∃ v, Sheds (torchOn naturalBlockat).blockat ⟨12, 5, 7⟩ ⟨12 + n, 5, 7⟩ v ∧ 10 - 2 * n ≤ v.x ∧ v.x ≤ 10 := by
  have htorch : (torchOn naturalBlockat).blockat ⟨12, 5, 7⟩ = 49 := by rw [blockat_torchOn, if_pos rfl]
  have hcolor : Blocks.getLightColor 49 = ⟨10, 8, 1⟩ := rfl
  have hreach : Reaches (torchOn naturalBlockat).blockat ⟨12, 5, 7⟩ ⟨10, 8, 1⟩ n ⟨12 + n, 5, 7⟩ := by
    apply reaches_east
    · intro i hi
      unfold goinghere
      rw [blockat_torchOn]
      split
      · rfl
      · next hne =>
        have hi0 : i ≠ 0 := by
          rintro rfl
          exact hne (by simp)
        rw [hair _ (by simp only; omega) (by simp only; omega)]
        rfl
    · intro i hi
      have halive : ∀ i < 5, ((⟨10, 8, 1⟩ : LightColor).fadeN i).spreads = true := by decide
      exact halive i (by omega)
  obtain ⟨j, hj, harrives⟩ := Wave.Reach.exists_arrive hreach
  refine ⟨(⟨10, 8, 1⟩ : LightColor).fadeN j, ⟨⟨by decide, by rw [htorch]; rfl⟩, j, ?_, ?_⟩, ?_, ?_⟩
  · rw [htorch, hcolor]
    exact harrives
  · rw [htorch, hcolor]
  · simp only [LightColor.fadeN]
    omega
  · simp only [LightColor.fadeN]
    omega

/-- From the torch alone comes light. -/
theorem shed_torchOn (hdark : ∀ x, Blocks.isLight (naturalBlockat x) = false) {o x : IVec3} (ho : o ≠ ⟨12, 5, 7⟩) :
    shed (torchOn naturalBlockat).blockat o x = .ZERO := by
  apply shed_eq_zero
  rintro v ⟨⟨-, hlight⟩, -⟩
  rw [blockat_torchOn, if_neg ho, hdark] at hlight
  cases hlight

/-- The light up to five cells to the east of the torch changes in a pass. -/
theorem sum_torchOn_ne (hdark : ∀ x, Blocks.isLight (naturalBlockat x) = false) {n : ℕ} (hn : n ≤ 4)
    (hair : ∀ x : ℤ, 12 < x → x < 12 + n → naturalBlockat ⟨x, 5, 7⟩ = 0) :
    (torchOn naturalBlockat).lightmap.sum ⟨12 + n, 5, 7⟩ ≠
      ((torchOn naturalBlockat).lightpassOnChunk .plain ⟨0, 0⟩).lightmap.sum ⟨12 + n, 5, 7⟩ := by
  obtain ⟨v, hv, hlow, hhigh⟩ := sheds_torchOn naturalBlockat (by omega : n ≤ 5) hair
  have hbefore : ((torchOn naturalBlockat).lightmap.sum ⟨12 + n, 5, 7⟩).x = 0 := rfl
  have hcell : (⟨12, 5, 7⟩ : IVec3) ∈ chunkCells ⟨0, 0⟩ := mem_chunkCells.mpr (by decide)
  have htotal : ((chunkCells ⟨0, 0⟩).map fun o => (shed (torchOn naturalBlockat).blockat o ⟨12 + n, 5, 7⟩).x).sum = v.x := by
    rw [List.sum_map_eq_nsmul_single ⟨12, 5, 7⟩ _ fun o ho _ => by rw [shed_torchOn naturalBlockat hdark ho]; rfl,
      List.count_eq_one_of_mem (nodup_chunkCells _) hcell, shed_eq hv]
    exact Nat.one_mul _
  have hafter : (((torchOn naturalBlockat).lightpassOnChunk .plain ⟨0, 0⟩).lightmap.sum ⟨12 + n, 5, 7⟩).x = v.x := by
    have hcolors : (torchOn naturalBlockat).relitColors ⟨0, 0⟩ ⟨12 + n, 5, 7⟩ =
        (chunkCells ⟨0, 0⟩).map fun o => shed (torchOn naturalBlockat).blockat o ⟨12 + n, 5, 7⟩ := List.nil_append _
    rw [sum_lightpassOnChunk .plain (lightpassed_torchOn naturalBlockat).wellLit, LightColor.capped, hcolors, List.map_map]
    show min (((chunkCells ⟨0, 0⟩).map fun o => (shed (torchOn naturalBlockat).blockat o ⟨12 + n, 5, 7⟩).x).sum % 2 ^ 16) 15 = v.x
    rw [htotal]
    omega
  intro hsame
  rw [hsame, hafter] at hbefore
  omega

end

/-- A terrain with a wall where the second chunk begins. -/
def wall (x : IVec3) : UInt32 := if 15 ≤ x.x then 5 else 0

/-- A terrain with a floor. -/
def floor (x : IVec3) : UInt32 := if x.y < 5 then 5 else 0

/-- A torch lights the wall at the beginning of the second chunk, and the pass does not ask for it: the
light goes no further than the cell before the wall, which is in the first. -/
theorem torchOn_wall : (torchOn wall).registry.Bijective ∧ Lightpassed (torchOn wall).lightmap ∧
    ∃ key ∈ (torchOn wall).takencare, key ≠ ⟨0, 0⟩ ∧
      LightDiffers (torchOn wall).blockat (torchOn wall).lightmap
        ((torchOn wall).lightpassOnChunk .plain ⟨0, 0⟩).lightmap key ∧
      ¬ Requested (torchOn wall) ((torchOn wall).askedByPass .plain ⟨0, 0⟩) key := by
  have hloaded : (⟨1, 0⟩ : IVec2) ∈ (torchOn wall).takencare := Finmap.mem_insert.mpr (.inl rfl)
  refine ⟨bijective_torchOn wall, lightpassed_torchOn wall, ⟨1, 0⟩, hloaded, by decide, ?_, ?_⟩
  · refine ⟨⟨15, 5, 7⟩, mem_chunkCells.mpr (by decide), .LEFT, ?_, ?_⟩
    · rw [Cubes.faceDrawn, blockat_torchOn, blockat_torchOn]
      decide
    · have hdark : ∀ x, Blocks.isLight (wall x) = false := by
        intro x
        unfold wall
        split <;> rfl
      refine sum_torchOn_ne wall hdark (n := 2) (by omega) ?_
      intro x hlow hhigh
      exact if_neg (by simp only; omega)
  · rw [requested_askedByPass .plain (bijective_torchOn wall) (lightpassed_torchOn wall) hloaded (by decide)]
    rintro ⟨o, -, x, hx, ⟨v, r, hr, -⟩ | ⟨hpass, -⟩⟩
    · cases hr
    · have hwall : 15 ≤ x.x := by
        have := congrArg IVec2.x hx
        simp only [spotToChunkPos, CH_W] at this
        omega
      have htorch : x ≠ ⟨12, 5, 7⟩ := by
        rintro rfl
        simp at hwall
      rw [blockat_torchOn, if_neg htorch, wall, if_pos hwall] at hpass
      cases hpass

/-- A torch on a floor: the light comes into the second chunk, and the pass asks for it. -/
theorem torchOn_floor : (torchOn floor).Touches ⟨0, 0⟩ ⟨1, 0⟩ ∧
    ∀ key ∈ (torchOn floor).takencare, key ≠ ⟨0, 0⟩ →
      LightDiffers (torchOn floor).blockat (torchOn floor).lightmap
        ((torchOn floor).lightpassOnChunk .plain ⟨0, 0⟩).lightmap key →
      Requested (torchOn floor) ((torchOn floor).askedByPass .plain ⟨0, 0⟩) key := by
  have htouches : (torchOn floor).Touches ⟨0, 0⟩ ⟨1, 0⟩ := by
    obtain ⟨v, hv, -⟩ := sheds_torchOn floor (n := 3) (by omega) fun x _ _ => rfl
    exact ⟨⟨12, 5, 7⟩, rfl, ⟨15, 5, 7⟩, rfl, .inr ⟨rfl, v, hv⟩⟩
  refine ⟨htouches, ?_⟩
  apply (lightpass_queues_iff .plain (torchOn floor) (bijective_torchOn floor) (lightpassed_torchOn floor) ⟨0, 0⟩).mpr
  intro key hkey hne hnot
  obtain rfl : key = ⟨1, 0⟩ := (mem_torchOn floor hkey).resolve_left hne
  exact absurd htouches hnot

end ChunkSystem

end Distgard
