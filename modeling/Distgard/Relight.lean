import Distgard.Edit

/-!
# Relighting after edits

After an edit only some chunks are lit anew. This module compares the light that a run of
edits leaves with the light that all loaded chunks give when they are lit from scratch.

## The model

`relight` clears the lightmap and lights the chunks of a list anew. A run starts from a world
that has been lit so, and after each edit the light requests are served (`LightDrained`).

## What is proved

* `lit_relight` — from scratch, the rays are those of the light blocks of the loaded chunks.
* `Lit.edit` — an edit after which the requests are served keeps the rays so, if it is
  `Foreseen`: when a light block that light cannot pass is set or taken away, the light that
  goes on from the cell comes from chunks near it.
* `relit_eq_relight` — so in every run of foreseen edits the rays are those from scratch.
* `lampBehindLamp` — a light block set in front of a lamp of another chunk leaves a ray behind
  it that is not there from scratch.
-/

namespace Distgard

open Lib LightMap

namespace ChunkSystem

/-- Clear the lightmap, and light the chunks of a list anew, one after the other. -/
def relight (cs : ChunkSystem) (order : List (Entropy × IVec2)) : ChunkSystem :=
  order.foldl (fun cs p => cs.lightpassOnChunk p.1 p.2) { cs with lightmap := ∅ }

/-- The list has all loaded chunks, and no others. -/
def Covers (cs : ChunkSystem) (order : List (Entropy × IVec2)) : Prop :=
  ∀ p, p ∈ order.map Prod.snd ↔ p ∈ cs.takencare

/-- The rays are those of the light blocks of the loaded chunks. -/
structure Lit (cs : ChunkSystem) : Prop where
  /-- The light is well formed. -/
  wellLit : WellLit cs.lightmap
  /-- The rays. -/
  rays : ∀ x o v, cs.lightmap.Ray x o v ↔ spotToChunkPos o ∈ cs.takencare ∧ Sheds cs.blockat o x v

variable {e : Entropy} {cs cs' : ChunkSystem} {spot : IVec3} {block : UInt32} {neighbors : Bool}

/-- Lighting chunks anew, one after the other. -/
theorem own_passes (order : List (Entropy × IVec2)) (hlit : WellLit cs.lightmap) :
    let cs' := order.foldl (fun cs p => cs.lightpassOnChunk p.1 p.2) cs
    WellLit cs'.lightmap ∧ cs'.takencare = cs.takencare ∧ cs'.blockat = cs.blockat ∧
      ∀ o x, cs'.lightmap.own o x =
        if spotToChunkPos o ∈ order.map Prod.snd then
          if Shines cs.blockat o then lightOf cs.blockat o (cs.blockat o) x else []
        else cs.lightmap.own o x := by
  induction order generalizing cs with
  | nil => exact ⟨hlit, rfl, rfl, fun o x => (if_neg List.not_mem_nil).symm⟩
  | cons p order ih =>
    obtain ⟨hw, htaken, hblock, hown⟩ := ih (hlit.lightpassOnChunk p.1 p.2)
    refine ⟨hw, htaken, hblock, ?_⟩
    intro o x
    have hsame : (cs.lightpassOnChunk p.1 p.2).blockat = cs.blockat := rfl
    rw [List.foldl_cons, hown, own_lightpassOnChunk p.1 hlit p.2, hsame, List.map_cons]
    by_cases hlater : spotToChunkPos o ∈ order.map Prod.snd
    · rw [if_pos hlater, if_pos (List.mem_cons_of_mem _ hlater)]
    · rw [if_neg hlater]
      by_cases hp : spotToChunkPos o = p.2
      · have hmem : spotToChunkPos o ∈ p.2 :: order.map Prod.snd := List.mem_cons.mpr (.inl hp)
        rw [if_pos hp, if_pos hmem]
      · have hnot : spotToChunkPos o ∉ p.2 :: order.map Prod.snd :=
          fun hm => (List.mem_cons.mp hm).elim hp hlater
        rw [if_neg hp, if_neg hnot]

/-- **From scratch** the rays are those of the light blocks of the loaded chunks. -/
theorem lit_relight {order : List (Entropy × IVec2)} (h : cs.Covers order) : (cs.relight order).Lit ∧
    (cs.relight order).takencare = cs.takencare ∧ (cs.relight order).blockat = cs.blockat := by
  have hempty : WellLit ({ cs with lightmap := ∅ } : ChunkSystem).lightmap := .empty
  obtain ⟨hw, htaken, hblock, hown⟩ := own_passes order hempty
  have htaken : (cs.relight order).takencare = cs.takencare := htaken
  have hblock : (cs.relight order).blockat = cs.blockat := hblock
  refine ⟨⟨hw, fun x o v => ?_⟩, htaken, hblock⟩
  rw [htaken, hblock, ray_iff_own, relight, hown, ← h]
  split
  · next hm => exact sheds_iff.trans ⟨fun hs => ⟨hm, hs⟩, fun hs => hs.2⟩
  · next hm =>
    refine ⟨fun ⟨r, hr, _⟩ => ?_, fun hs => absurd hs.1 hm⟩
    simp [own] at hr

/-- The block goes where air or water is, or the cell is cleared. -/
def Placeable (existing block : UInt32) : Prop :=
  block = 0 ∨ existing &&& Blocks.blockIdBits = 0 ∨ existing &&& Blocks.blockIdBits = 2

/-- When a light block that light cannot pass is set or taken away, the light that goes on
from the cell, but for the cell's own, comes from chunks near it. -/
def Foreseen (cs : ChunkSystem) (spot : IVec3) (block : UInt32) (neighbors : Bool) : Prop :=
  cs.editsLight spot block = true → Blocks.passable block ≠ Blocks.passable (cs.blockat spot) →
    ∀ r ∈ cs.lightmap.rays spot, r.origin ≠ spot → r.value.spreads = true →
      spotToChunkPos r.origin ∈ nearChunks spot neighbors

/-- Light that goes on from a cell came to it from a neighbor. -/
theorem exists_neighbor {blockat : IVec3 → UInt32} {o x : IVec3} {value : LightColor} {k : ℕ}
    (h : Reaches blockat o value k x) (hx : x ≠ o) : ∃ j, ∃ side : CubeSide, Reaches blockat o value j (side.offset + x) := by
  cases h with
  | start => exact absurd rfl hx
  | @step j y _ hr _ _ hadj =>
    obtain ⟨side, rfl⟩ := hadj
    refine ⟨j, side.opposite, ?_⟩
    rw [CubeSide.opposite_offset_add]
    exact hr

/-- Light of an origin whose chunk is not lit anew does not go on from the cell, if that
changed whether light passes. -/
theorem stops_of_not_asked (h : cs.Lit) (hplace : Placeable (cs.blockat spot) block)
    (hforeseen : cs.Foreseen spot block neighbors) {o : IVec3} (hloaded : spotToChunkPos o ∈ cs.takencare)
    (hs : Shines cs.blockat o) (ho : spot ≠ o) (hkey : spotToChunkPos o ∉ cs.lightKeys e spot block neighbors false)
    (hpass : Blocks.passable block ≠ Blocks.passable (cs.blockat spot)) {k : ℕ}
    (hreach : Reaches cs.blockat o (Blocks.getLightColor (cs.blockat o)) k spot) :
    ((Blocks.getLightColor (cs.blockat o)).fadeN k).spreads = false := by
  by_contra halive
  rw [Bool.not_eq_false] at halive
  rw [mem_lightKeys] at hkey
  cases hlight : cs.editsLight spot block with
  | true =>
    rw [hlight, if_pos rfl] at hkey
    obtain ⟨j, hjk, harr⟩ := Wave.Reach.exists_arrive hreach
    obtain ⟨r, hr, hro, hrv⟩ := (h.rays spot o _).mpr ⟨hloaded, hs, j, harr, rfl⟩
    subst hro
    refine hkey (hforeseen hlight hpass r hr (Ne.symm ho) ?_)
    rw [hrv]
    exact LightColor.spreads_mono (LightColor.fadeN_anti _ hjk) halive
  | false =>
    rw [hlight, if_neg (by decide)] at hkey
    -- a transparent block goes where light passes already
    have hopaque : Blocks.isTransparent (block &&& Blocks.blockIdBits) = false := by
      by_contra ht
      rw [Bool.not_eq_false] at ht
      have hnew : Blocks.passable block = true := by rw [Blocks.passable, ht, Bool.or_true, Bool.true_or]
      have hold : Blocks.passable (cs.blockat spot) = true := by
        rcases hplace with rfl | hair | hwater
        · exact absurd ht (by decide)
        · rw [Blocks.passable, hair]
          rfl
        · rw [Blocks.passable, hwater]
          rfl
      exact hpass (hnew.trans hold.symm)
    obtain ⟨j, side, hj⟩ := exists_neighbor hreach ho
    obtain ⟨i, -, harr⟩ := Wave.Reach.exists_arrive hj
    obtain ⟨r, hr, hro, -⟩ := (h.rays (side.offset + spot) o _).mpr ⟨hloaded, hs, i, harr, rfl⟩
    exact hkey ⟨rfl, hopaque, mem_implicatedChunks.mpr ⟨side, r, hr, by rw [hro]⟩⟩

/-- Setting a block of the user's sets that block, and no other. -/
theorem blockat_setBlock_user (cs : ChunkSystem) (spot : IVec3) (block : UInt32) (x : IVec3) :
    (cs.setBlock spot block true).blockat x = if x = spot then block else cs.blockat x :=
  blockat_setBlockNoSound_user cs spot block x

/-- The light of an origin whose chunk is not lit anew is what it was. -/
theorem sheds_of_not_asked (h : cs.Lit) (hplace : Placeable (cs.blockat spot) block)
    (hforeseen : cs.Foreseen spot block neighbors) {o : IVec3} (hloaded : spotToChunkPos o ∈ cs.takencare)
    (hkey : spotToChunkPos o ∉ cs.lightKeys e spot block neighbors false) (x : IVec3) (v : LightColor) :
    Sheds (cs.setBlock spot block true).blockat o x v ↔ Sheds cs.blockat o x v := by
  have hset := blockat_setBlock_user cs spot block
  by_cases ho : spot = o
  · subst ho
    -- the cell's own light is asked for whenever it gives some, before or after
    have hlight : cs.editsLight spot block = false := by
      by_contra hl
      rw [Bool.not_eq_false] at hl
      rw [mem_lightKeys, if_pos hl] at hkey
      exact hkey (self_mem_nearChunks spot neighbors)
    rw [editsLight, Bool.or_eq_false_iff] at hlight
    refine ⟨?_, ?_⟩
    · intro hs
      have hl := hs.1.2
      rw [hset, if_pos rfl, hlight.1] at hl
      cases hl
    · intro hs
      have hl := hs.1.2
      rw [hlight.2] at hl
      cases hl
  · have hsame : (cs.setBlock spot block true).blockat o = cs.blockat o := by rw [hset, if_neg (Ne.symm ho)]
    unfold Sheds
    have hshines : Shines (cs.setBlock spot block true).blockat o ↔ Shines cs.blockat o := by
      unfold Shines
      rw [hsame]
    rw [hshines, hsame]
    refine and_congr_right fun hs => exists_congr fun k => and_congr_left fun _ =>
      (Wave.Arrive.congr fun j y hr halive => ?_).symm
    unfold goinghere
    rw [hset]
    by_cases hy : y = spot
    · subst hy
      rw [if_pos rfl]
      by_cases hpass : Blocks.passable block = Blocks.passable (cs.blockat y)
      · rw [hpass]
      · rw [stops_of_not_asked h hplace hforeseen hloaded hs ho hkey hpass hr] at halive
        cases halive
    · rw [if_neg hy]

/-- **A foreseen edit**, after which the light requests are served, leaves the rays those of the
light blocks of the loaded chunks. -/
theorem Lit.edit {env : Externals} (h : cs.Lit) (hb : cs.registry.Bijective) (hnone : cs.lightRebuildRequests = [])
    (hplace : Placeable (cs.blockat spot) block) (hforeseen : cs.Foreseen spot block neighbors)
    (hd : LightDrained env (cs.setBlockAndQueueRerender e spot block neighbors true false) cs') :
    cs'.Lit ∧ cs'.registry.Bijective ∧ cs'.lightRebuildRequests = [] := by
  have hdrained := editDrained h.wellLit hb hnone hd
  refine ⟨⟨hdrained.wellLit, fun x o v => ?_⟩, hdrained.bijective, hdrained.requests⟩
  rw [hdrained.takencare, hdrained.blockat, ray_iff_own]
  by_cases hasked : spotToChunkPos o ∈ cs.takencare ∧ spotToChunkPos o ∈ cs.lightKeys e spot block neighbors false
  · rw [hdrained.relit o hasked.1 hasked.2, sheds_iff]
    exact ⟨fun hs => ⟨hasked.1, hs⟩, fun hs => hs.2⟩
  · rw [hdrained.kept o hasked, ← ray_iff_own, h.rays]
    apply and_congr_right
    intro hloaded
    have hkey : spotToChunkPos o ∉ cs.lightKeys e spot block neighbors false := fun hkey => hasked ⟨hloaded, hkey⟩
    exact (sheds_of_not_asked h hplace hforeseen hloaded hkey x v).symm

/-! ### Runs -/

/-- The runs of foreseen edits, after each of which the light requests are served, from a world
whose loaded chunks have been lit from scratch. -/
inductive Relit (env : Externals) : ChunkSystem → Prop
  /-- The loaded chunks have been lit from scratch. -/
  | start (cs : ChunkSystem) (order : List (Entropy × IVec2)) : cs.registry.Bijective → cs.lightRebuildRequests = [] →
      cs.Covers order → Relit env (cs.relight order)
  /-- A block is placed or cleared, and the light requests are served. -/
  | edited {cs cs' : ChunkSystem} (e : Entropy) (spot : IVec3) (block : UInt32) (neighbors : Bool) : Relit env cs →
      Placeable (cs.blockat spot) block → cs.Foreseen spot block neighbors →
      LightDrained env (cs.setBlockAndQueueRerender e spot block neighbors true false) cs' → Relit env cs'

/-- Lighting from scratch leaves all but the light as it was. -/
theorem relight_frame (cs : ChunkSystem) (order : List (Entropy × IVec2)) :
    (cs.relight order).registry = cs.registry ∧ (cs.relight order).lightRebuildRequests = cs.lightRebuildRequests := by
  refine foldl_induct (fun cs' : ChunkSystem => cs'.registry = cs.registry ∧
    cs'.lightRebuildRequests = cs.lightRebuildRequests) order (fun cs' p _ h => ?_) ⟨rfl, rfl⟩
  exact ⟨h.1, h.2⟩

theorem Relit.lit {env : Externals} (h : Relit env cs) :
    cs.Lit ∧ cs.registry.Bijective ∧ cs.lightRebuildRequests = [] := by
  induction h with
  | start cs order hb hnone hcovers =>
    obtain ⟨hregistry, hrequests⟩ := relight_frame cs order
    exact ⟨(lit_relight hcovers).1, hregistry ▸ hb, hrequests.trans hnone⟩
  | edited e spot block neighbors _ hplace hforeseen hd ih =>
    obtain ⟨hlit, hb, hnone⟩ := ih
    exact hlit.edit hb hnone hplace hforeseen hd

/-- **Relighting after edits is relighting from scratch**, in every run of foreseen edits: a
cell has a ray of an origin and a color exactly when it has one after the lightmap is cleared
and every loaded chunk is lit anew, in any order. Cells are those within reach of
`spotToChunkPos`, with coordinates below `2 ^ 24`. -/
theorem relit_eq_relight {env : Externals} (h : Relit env cs) {order : List (Entropy × IVec2)} (hcovers : cs.Covers order)
    (x o : IVec3) (v : LightColor) : cs.lightmap.Ray x o v ↔ (cs.relight order).lightmap.Ray x o v := by
  obtain ⟨hscratch, htaken, hblock⟩ := lit_relight hcovers
  rw [h.lit.1.rays, hscratch.rays, htaken, hblock]

/-! ### A lamp in front of a lamp -/

/-- A fresh slot comes to hold the chunk at a position, without vertices. -/
def hold (cs : ChunkSystem) (index : ℕ) (pos : IVec2) : ChunkSystem :=
  { cs with
    chunks := cs.chunks.set index ⟨index, true, pos⟩
    geobank := cs.geobank.set index ⟨pos, .empty⟩
    takencare := (cs.takencare.erase defaultPos).insert pos ⟨index, true, pos⟩ }

theorem bijective_hold {index : ℕ} {pos : IVec2} {used : Bool} {mesh : Mesh} (hb : cs.registry.Bijective)
    (hslot : cs.chunks[index]? = some ⟨index, used, defaultPos⟩) (hbank : cs.geobank[index]? = some ⟨defaultPos, mesh⟩)
    (hnone : cs.takencare.lookup pos = none) : (cs.hold index pos).registry.Bijective := by
  have hpos : (cs.geobank.map ChunkGeo.pos)[index]? = some defaultPos := by rw [List.getElem?_map, hbank]; rfl
  have hplace := Registry.Bijective.place hb hnone hslot hpos
  have hmap : ((cs.geobank.set index ⟨pos, .empty⟩).map ChunkGeo.pos) = (cs.geobank.map ChunkGeo.pos).set index pos := by
    rw [List.map_set]
  rw [registry, hold, hmap]
  exact hplace

/-- A dark world in which two chunks are loaded, without vertices. -/
def twoChunks (env : Externals) (pos : IVec2) : ChunkSystem := ((new env 1 0 0 false).hold 0 ⟨0, 0⟩).hold 1 pos

theorem bijective_twoChunks (env : Externals) {pos : IVec2} (hpos : pos ≠ ⟨0, 0⟩) :
    (twoChunks env pos).registry.Bijective := by
  have hfresh : (new env 1 0 0 false).registry.Bijective := bijective_new env 1 0 0 false none
  have hfirst : ((new env 1 0 0 false).hold 0 ⟨0, 0⟩).registry.Bijective := bijective_hold hfresh rfl rfl rfl
  have hnone : ((new env 1 0 0 false).hold 0 ⟨0, 0⟩).takencare.lookup pos = none := by
    have htaken : ((new env 1 0 0 false).hold 0 ⟨0, 0⟩).takencare =
        ((∅ : HashMap IVec2 ChunkFacade).erase defaultPos).insert ⟨0, 0⟩ ⟨0, true, ⟨0, 0⟩⟩ := rfl
    rw [htaken, Finmap.lookup_insert_of_ne _ hpos, HashMap.lookup_erase']
    split <;> rfl
  exact bijective_hold hfirst rfl rfl hnone

theorem mem_twoChunks (env : Externals) {pos key : IVec2} :
    key ∈ (twoChunks env pos).takencare ↔ key = ⟨0, 0⟩ ∨ key = pos := by
  have htaken : (twoChunks env pos).takencare = (((∅ : HashMap IVec2 ChunkFacade).erase defaultPos).insert ⟨0, 0⟩
      ⟨0, true, ⟨0, 0⟩⟩ |>.erase defaultPos).insert pos ⟨1, true, pos⟩ := rfl
  rw [htaken]
  simp only [Finmap.mem_insert, Finmap.mem_erase, Finmap.notMem_empty, and_false, or_false]
  constructor
  · rintro (rfl | ⟨-, rfl⟩)
    · exact .inr rfl
    · exact .inl rfl
  · rintro (rfl | rfl)
    · exact .inr ⟨by decide, rfl⟩
    · exact .inl rfl

/-- Two loaded chunks in a world of air, with a lamp in the first. -/
def lampWorld : ChunkSystem :=
  (((new .plain 1 0 0 false).hold 0 ⟨0, 0⟩).hold 1 ⟨1, 0⟩).setBlock ⟨10, 5, 7⟩ 18 true

/-- An order in which the two can be lit. -/
def bothChunks : List (Entropy × IVec2) := [(.plain, ⟨0, 0⟩), (.plain, ⟨1, 0⟩)]

theorem covers_lampWorld : lampWorld.Covers bothChunks := by
  intro p
  rw [show lampWorld.takencare = (twoChunks .plain ⟨1, 0⟩).takencare from rfl, mem_twoChunks]
  simp only [bothChunks, List.map_cons, List.map_nil, List.mem_cons, List.not_mem_nil, or_false]

theorem bijective_lampWorld : lampWorld.registry.Bijective := bijective_twoChunks .plain (by decide)

/-- Lit from scratch, the world with a lamp has no light requests. -/
theorem relight_lampWorld : (lampWorld.relight bothChunks).registry.Bijective ∧
    (lampWorld.relight bothChunks).lightRebuildRequests = [] := by
  obtain ⟨hregistry, hrequests⟩ := relight_frame lampWorld bothChunks
  have hnone : lampWorld.lightRebuildRequests = [] := rfl
  refine ⟨?_, hrequests.trans hnone⟩
  rw [hregistry]
  exact bijective_lampWorld

theorem blockat_lampWorld (x : IVec3) : lampWorld.blockat x = if x = ⟨10, 5, 7⟩ then 18 else 0 := by
  rw [lampWorld, blockat_setBlock_user]
  rfl

/-- In `k` steps light goes at most `k` cells to the east. -/
theorem x_le_of_reaches {blockat : IVec3 → UInt32} {o x : IVec3} {value : LightColor} {k : ℕ}
    (h : Reaches blockat o value k x) : x.x ≤ o.x + k := by
  unfold Reaches at h
  induction h with
  | start => simp
  | step _ _ _ hadj ih =>
    obtain ⟨side, rfl⟩ := hadj
    cases side <;> simp only [IVec3.add_x, CubeSide.offset] <;> omega

/-- Light goes straight to the east while it passes and is alive. -/
theorem reaches_east {blockat : IVec3 → UInt32} {o : IVec3} {value : LightColor} {n : ℕ}
    (hpass : ∀ i < n, goinghere blockat o ⟨o.x + i, o.y, o.z⟩ = true) (halive : ∀ i < n, (value.fadeN i).spreads = true) :
    Reaches blockat o value n ⟨o.x + n, o.y, o.z⟩ := by
  induction n with
  | zero =>
    have ho : (⟨o.x + (0 : ℕ), o.y, o.z⟩ : IVec3) = o := by ext <;> simp
    rw [ho]
    exact .start
  | succ n ih =>
    have hn := ih (fun i hi => hpass i (by omega)) fun i hi => halive i (by omega)
    refine .step hn (hpass n (by omega)) (halive n (by omega)) ⟨.RIGHT, ?_⟩
    ext <;> simp [CubeSide.offset, add_assoc]

/-- The lamp lights the cell seven to the east of it. -/
theorem lampWorld_ray : (lampWorld.relight bothChunks).lightmap.Ray ⟨17, 5, 7⟩ ⟨10, 5, 7⟩ ⟨1, 1, 1⟩ := by
  rw [(lit_relight covers_lampWorld).1.rays, (lit_relight covers_lampWorld).2.1, (lit_relight covers_lampWorld).2.2]
  have hlamp : lampWorld.blockat ⟨10, 5, 7⟩ = 18 := by rw [blockat_lampWorld, if_pos rfl]
  refine ⟨((covers_lampWorld _).mp (by decide) : _), ⟨by decide, by rw [hlamp]; decide⟩, 7, ⟨?_, fun j hj => ?_⟩, ?_⟩
  · refine reaches_east (fun i hi => ?_) fun i hi => ?_
    · unfold goinghere
      rw [blockat_lampWorld]
      split
      · next h => simp [h]
      · rfl
    · rw [hlamp]
      revert i
      decide
  · have := x_le_of_reaches hj
    simp only at this
    omega
  · rw [hlamp]
    rfl

/-- A lamp of another chunk, and a light block that is set where its light goes on: the chunk of
the lamp is not lit anew, and the ray behind the new block stays, though from scratch there is
none. -/
theorem lampBehindLamp : ∃ cs', lampWorld.Covers bothChunks ∧
    LightDrained .plain ((lampWorld.relight bothChunks).setBlockAndQueueRerender .plain ⟨16, 5, 7⟩ 18 true true false) cs' ∧
    Placeable ((lampWorld.relight bothChunks).blockat ⟨16, 5, 7⟩) 18 ∧ cs'.Covers bothChunks ∧
    cs'.lightmap.Ray ⟨17, 5, 7⟩ ⟨10, 5, 7⟩ ⟨1, 1, 1⟩ ∧
    ¬ (cs'.relight bothChunks).lightmap.Ray ⟨17, 5, 7⟩ ⟨10, 5, 7⟩ ⟨1, 1, 1⟩ := by
  obtain ⟨hlit, htaken, hblock⟩ := lit_relight covers_lampWorld
  obtain ⟨hb, hnone⟩ := relight_lampWorld
  obtain ⟨cs', hd⟩ := exists_editDrained .plain .plain (lampWorld.relight bothChunks) ⟨16, 5, 7⟩ 18 true true false
    hb hnone
  have hdrained := editDrained hlit.wellLit hb hnone hd
  have hcovers : cs'.Covers bothChunks := fun p => by rw [hdrained.takencare, htaken, covers_lampWorld]
  have hafter : ∀ x, cs'.blockat x = if x = ⟨16, 5, 7⟩ then 18 else if x = ⟨10, 5, 7⟩ then 18 else 0 := by
    intro x
    rw [hdrained.blockat, blockat_setBlock_user, hblock, blockat_lampWorld]
  refine ⟨cs', covers_lampWorld, hd, .inr (.inl ?_), hcovers, ?_, ?_⟩
  · rw [hblock, blockat_lampWorld]
    rfl
  · -- the chunk of the lamp is not near the new block
    have hkey : ¬ (spotToChunkPos ⟨10, 5, 7⟩ ∈ (lampWorld.relight bothChunks).takencare ∧ spotToChunkPos ⟨10, 5, 7⟩ ∈
        (lampWorld.relight bothChunks).lightKeys .plain ⟨16, 5, 7⟩ 18 true false) := by
      rintro ⟨-, hkey⟩
      rw [mem_lightKeys, if_pos (by rw [editsLight]; rfl)] at hkey
      exact absurd hkey (by decide)
    rw [ray_iff_own, hdrained.kept _ hkey, ← ray_iff_own]
    exact lampWorld_ray
  · obtain ⟨hscratch, -, hblock'⟩ := lit_relight hcovers
    rw [hscratch.rays, hblock']
    rintro ⟨-, -, k, ⟨hreach, -⟩, hv⟩
    have hlamp : cs'.blockat ⟨10, 5, 7⟩ = 18 := by rw [hafter]; rfl
    rw [hlamp] at hreach hv
    -- the light comes in seven steps, each to the east, and the last through the new block
    have hk : k = 7 := by
      have hx := congrArg LightColor.x hv
      simp only [Blocks.getLightColor, LightColor.fadeN] at hx
      omega
    subst hk
    cases hreach with
    | @step j y _ hr hpass _ hadj =>
      have hle := x_le_of_reaches hr
      obtain ⟨side, hside⟩ := hadj
      have hy : y = ⟨16, 5, 7⟩ := by
        have hx := congrArg IVec3.x hside
        have hy := congrArg IVec3.y hside
        have hz := congrArg IVec3.z hside
        cases side <;> simp only [IVec3.add_x, IVec3.add_y, IVec3.add_z, CubeSide.offset] at hx hy hz hle <;> ext <;>
          simp only <;> omega
      rw [goinghere, hy, hafter, if_pos rfl] at hpass
      exact absurd hpass (by decide)

/-- A lamp set in front of the lamp, in its own chunk: the light that went on there is foreseen,
and the rays are those from scratch. -/
theorem relit_lampWorld : ∃ cs', LightDrained .plain
    ((lampWorld.relight bothChunks).setBlockAndQueueRerender .plain ⟨11, 5, 7⟩ 18 true true false) cs' ∧
    Relit .plain cs' ∧ cs'.Covers bothChunks ∧
    ∀ x o v, cs'.lightmap.Ray x o v ↔ (cs'.relight bothChunks).lightmap.Ray x o v := by
  obtain ⟨hlit, htaken, hblock⟩ := lit_relight covers_lampWorld
  obtain ⟨hb, hnone⟩ := relight_lampWorld
  obtain ⟨cs', hd⟩ := exists_editDrained .plain .plain (lampWorld.relight bothChunks) ⟨11, 5, 7⟩ 18 true true false
    hb hnone
  have hdrained := editDrained hlit.wellLit hb hnone hd
  have hold : (lampWorld.relight bothChunks).blockat ⟨11, 5, 7⟩ = 0 := by rw [hblock, blockat_lampWorld]; rfl
  have hstart : Relit .plain (lampWorld.relight bothChunks) := .start _ _ bijective_lampWorld rfl covers_lampWorld
  have hforeseen : (lampWorld.relight bothChunks).Foreseen ⟨11, 5, 7⟩ 18 true := by
    intro _ _ r hr _ _
    obtain ⟨-, ⟨-, hshines⟩, -⟩ := (hlit.rays ⟨11, 5, 7⟩ r.origin r.value).mp ⟨r, hr, rfl, rfl⟩
    have horigin : r.origin = ⟨10, 5, 7⟩ := by
      by_contra hne
      rw [hblock, blockat_lampWorld, if_neg hne] at hshines
      exact absurd hshines (by decide)
    rw [horigin]
    exact self_mem_nearChunks ⟨11, 5, 7⟩ true
  have hrun : Relit .plain cs' := .edited .plain ⟨11, 5, 7⟩ 18 true hstart (.inr (.inl (by rw [hold]; rfl))) hforeseen hd
  have hcovers : cs'.Covers bothChunks := fun p => by rw [hdrained.takencare, htaken, covers_lampWorld]
  exact ⟨cs', hd, hrun, hcovers, fun x o v => relit_eq_relight hrun hcovers x o v⟩

end ChunkSystem

end Distgard
