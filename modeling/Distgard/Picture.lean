import Distgard.Attend
import Distgard.LightMesh
import Distgard.LightStreaming
import Distgard.Reenter

/-!
# The picture of the world

The vertex data of a slot are made when the slot is rebuilt. After that blocks are set, structures
are stamped, light is spread from other chunks and slots are moved, in any order; the slot is asked
for again if one of these is thought to change what is drawn there. This module puts them together:
what is drawn of a loaded chunk is what a rebuild would draw now, or its slot waits in a queue.

## The model

* An edit, a move and the serving of a request are `Event`s, and each happens at once. Whether an event
  asks for all chunks in which it can be seen is `Allowed`: an edit may fill or clear a cell that
  darkens a face across an edge (`editNoticed_iff`), a structure may reach over an edge, and a pass may
  change the light in front of the faces of a chunk that it does not touch.
* Of the vertex data the six streams of the cubes are compared; `DrawsCubes` says that a rebuild
  fills them with the cubes.

## What is proved

* `cubes_of_not_seen`, `cubes_of_light` — what a rebuild reads of the blocks and of the light.
* `CurrentBut.edit`, `CurrentBut.rebuild`, `CurrentBut.move` — an event keeps the picture current, but for
  the chunks that wait.
* `picture_current` — so it is in every run; and when no request is left, all loaded chunks are drawn
  as they are.
-/

namespace Distgard

open Lib LightMap

/-- The streams of the cubes. -/
def Mesh.cubeStreams (mesh : Mesh) : (List UInt32 × List UInt8 × List UInt16) × List UInt32 × List UInt8 × List UInt16 :=
  ((mesh.data32, mesh.data8, mesh.data8rgb), mesh.tdata32, mesh.tdata8, mesh.tdata8rgb)

namespace Cubes

/-- The streams of the cubes. -/
def streams (c : Cubes) : (List UInt32 × List UInt8 × List UInt16) × List UInt32 × List UInt8 × List UInt16 :=
  ((c.data32, c.data8, c.data8rgb), c.tdata32, c.tdata8, c.tdata8rgb)

/-! ### What is read of the light -/

variable {blockat blockat' : IVec3 → UInt32} {lightmap lightmap' : LightMap} {pos : IVec2}

theorem packedColor_congr {spot : IVec3} (h : lightmap.sum spot = lightmap'.sum spot) :
    packedColor lightmap spot = packedColor lightmap' spot := by
  unfold packedColor
  rw [h]

theorem cell_of_light {spot : IVec3}
    (h : ∀ side : CubeSide, faceDrawn blockat spot side = true →
      lightmap.sum (spot + side.offset) = lightmap'.sum (spot + side.offset)) (c : Cubes) :
    cell blockat lightmap pos c spot = cell blockat lightmap' pos c spot := by
  unfold cell
  by_cases hair : blockat spot &&& Blocks.blockIdBits = 0
  · simp only [hair, ne_eq, not_true_eq_false, if_false]
  by_cases hmodel : Blocks.models.contains (blockat spot &&& Blocks.blockIdBits) = true
  · simp only [if_pos hmodel]
  simp only [if_pos hair, if_neg hmodel]
  have hsolid : (blockat spot &&& Blocks.blockIdBits != 0 && !Blocks.models.contains (blockat spot &&& Blocks.blockIdBits)) =
      true := by
    rw [Bool.eq_false_of_not_eq_true hmodel, Bool.not_false, Bool.and_true]
    exact bne_iff_ne.mpr hair
  by_cases hclear : (Blocks.isTransparent (blockat spot &&& Blocks.blockIdBits) ||
      Blocks.isSemiTransparent (blockat spot &&& Blocks.blockIdBits)) = true
  · rw [if_pos hclear, if_pos hclear]
    apply List.foldl_ext
    intro c side _
    unfold transparentSide
    dsimp only
    split
    · next hshows =>
      rw [packedColor_congr (h side ?_)]
      unfold faceDrawn Blocks.transparentCube
      simp only [hsolid, hclear, hshows, Bool.and_self, Bool.or_true]
    · rfl
  · rw [if_neg hclear, if_neg hclear]
    apply List.foldl_ext
    intro c side _
    unfold opaqueSide
    dsimp only
    split
    · next hshows =>
      rw [packedColor_congr (h side ?_)]
      unfold faceDrawn Blocks.opaqueCube
      simp only [hsolid, Bool.eq_false_of_not_eq_true hclear, Bool.not_false, hshows, Bool.and_self, Bool.true_or]
    · rfl

/-- **What is read of the light**: the cells in front of the faces that are drawn. -/
theorem cubes_of_light (h : ¬ ChunkSystem.LightDiffers blockat lightmap lightmap' pos) :
    cubes blockat lightmap pos = cubes blockat lightmap' pos := by
  apply List.foldl_ext
  intro c spot hspot
  rw [mem_columnCells, List.mem_reverse] at hspot
  have hspot : spot ∈ chunkCells pos := by
    rw [chunkCells, mem_columnCells]
    exact hspot
  apply cell_of_light
  intro side hdrawn
  by_contra hne
  exact h ⟨spot, hspot, side, hdrawn, hne⟩

end Cubes

namespace ChunkSystem

open Cubes

/-! ### What is read of the blocks -/

variable {env : Externals} {e : Entropy} {cs cs' : ChunkSystem} {blockat' : IVec3 → UInt32} {pos : IVec2}

/-- A change of the blocks can be seen in a chunk: it is there or next to it, or it fills or clears a
cell that darkens a face there. -/
def Seen (cs : ChunkSystem) (blockat' : IVec3 → UInt32) (pos : IVec2) : Prop :=
  (∃ x, cs.blockat x ≠ blockat' x ∧ ∃ side : CubeSide, spotToChunkPos (x + side.offset) = pos) ∨
    ∃ x, ¬ (cs.blockat x = 0 ↔ blockat' x = 0) ∧ cs.Shades x pos

/-- **A change that cannot be seen** leaves the cubes as they are. -/
theorem cubes_of_not_seen (h : ¬ cs.Seen blockat' pos) (lightmap : LightMap) :
    cubes cs.blockat lightmap pos = cubes blockat' lightmap pos := by
  unfold Seen at h
  rw [not_or] at h
  obtain ⟨hnear, hshades⟩ := h
  have hcell : ∀ spot ∈ chunkCells pos, cs.blockat spot = blockat' spot := by
    intro spot hspot
    by_contra hne
    obtain ⟨side, hside⟩ := mem_neighborChunks.mp (self_mem_nearChunks spot true)
    exact hnear ⟨spot, hne, side, hside.trans (mem_chunkCells.mp hspot).1⟩
  have hfront : ∀ spot ∈ chunkCells pos, ∀ side : CubeSide, cs.blockat (spot + side.offset) = blockat' (spot + side.offset) := by
    intro spot hspot side
    by_contra hne
    have hback : spot + side.offset + side.opposite.offset = spot := by
      cases side <;> ext <;> simp [CubeSide.offset, CubeSide.opposite]
    refine hnear ⟨_, hne, side.opposite, ?_⟩
    rw [hback]
    exact (mem_chunkCells.mp hspot).1
  refine cubes_congr hcell hfront ?_
  rintro ⟨spot, hspot, side, hdiffers⟩
  rw [ne_eq, sameFace_of_geometry (hcell spot hspot) (hfront spot hspot side)] at hdiffers
  apply hdiffers
  intro hdrawn ind hind
  rw [ambient_eq_iff hind, ambChange, ambChange, List.countP_map, List.countP_map]
  apply List.countP_congr
  intro vec hvec
  -- a cell around the corner that was filled or cleared would darken the face
  have hsame : cs.blockat (vec + spot) = 0 ↔ blockat' (vec + spot) = 0 := by
    by_contra hflip
    refine hshades ⟨vec + spot, hflip, spot, hspot, side, hdrawn, ind, hind, ?_⟩
    have hvec' : vec + spot - spot = vec := by ext <;> simp
    rwa [hvec']
  simp only [Function.comp_apply, bne_iff_ne, ne_eq, hsame]

/-! ### What waits -/

theorem queued_iff : cs.Queued pos ↔ ∃ cf, cs.takencare.lookup pos = some cf ∧ ∃ r, cf.geoIndex ∈ cs.requests r := by
  unfold Queued Requested
  simp only [List.mem_append]
  constructor
  · rintro ⟨cf, hcf, ((huser | hgen) | hlight) | hbackground⟩
    · exact ⟨cf, hcf, .user, huser⟩
    · exact ⟨cf, hcf, .gen, hgen⟩
    · exact ⟨cf, hcf, .light, hlight⟩
    · exact ⟨cf, hcf, .background, hbackground⟩
  · rintro ⟨cf, hcf, r, hr⟩
    refine ⟨cf, hcf, ?_⟩
    cases r with
    | light => exact .inl (.inr hr)
    | user => exact .inl (.inl (.inl hr))
    | gen => exact .inl (.inl (.inr hr))
    | background => exact .inr hr

/-- What waits goes on waiting when there are more requests. -/
theorem Queued.mono (h : cs.Queued pos) (hlookup : cs'.takencare.lookup pos = cs.takencare.lookup pos)
    (hrequests : ∀ r, cs.requests r ⊆ cs'.requests r) : cs'.Queued pos := by
  rw [queued_iff] at h ⊢
  obtain ⟨cf, hcf, r, hr⟩ := h
  exact ⟨cf, hlookup.trans hcf, r, hrequests r hr⟩

/-! ### The invariant -/

/-- What is to be drawn of cubes in a slot are those of a chunk. -/
def Shows (cs : ChunkSystem) (pos : IVec2) (cf : ChunkFacade) : Prop :=
  ∃ geo, cs.geobank[cf.geoIndex]? = some geo ∧ geo.mesh.cubeStreams = (cubes cs.blockat cs.lightmap pos).streams

/-- The slots of the loaded chunks show them or wait, but for some chunks. -/
structure CurrentBut (cs : ChunkSystem) (pending : Set IVec2) : Prop where
  /-- A chunk is held by the slot it is registered with. -/
  held : ∀ pos cf, cs.takencare.lookup pos = some cf → ∃ chunk, cs.chunks[cf.geoIndex]? = some chunk ∧ chunk.pos = pos
  /-- The light comes from passes. -/
  lightpassed : Lightpassed cs.lightmap
  /-- What is not shown waits. -/
  shown : ∀ pos cf, cs.takencare.lookup pos = some cf → pos ≠ defaultPos → pos ∉ pending → cs.Queued pos ∨ cs.Shows pos cf

variable {pending pending' : Set IVec2}

/-- What a step may do to the chunks that it does not redraw: ask for them, or leave them as they are. -/
theorem CurrentBut.of_kept (h : cs.CurrentBut pending)
    (hheld : ∀ pos cf, cs'.takencare.lookup pos = some cf → ∃ chunk, cs'.chunks[cf.geoIndex]? = some chunk ∧ chunk.pos = pos)
    (hlight : Lightpassed cs'.lightmap)
    (hkept : ∀ pos cf, cs'.takencare.lookup pos = some cf → pos ≠ defaultPos → pos ∉ pending' →
      cs.takencare.lookup pos = some cf ∧ pos ∉ pending ∧ (cs.Queued pos → cs'.Queued pos) ∧
        cs'.geobank[cf.geoIndex]? = cs.geobank[cf.geoIndex]? ∧
        (¬ cs'.Queued pos → cubes cs.blockat cs.lightmap pos = cubes cs'.blockat cs'.lightmap pos)) :
    cs'.CurrentBut pending' := by
  refine ⟨hheld, hlight, fun pos cf hcf hpos hpending => ?_⟩
  obtain ⟨hcf, hpending, hqueued, hgeo, hcubes⟩ := hkept pos cf hcf hpos hpending
  by_cases hwaits : cs'.Queued pos
  · exact .inl hwaits
  · right
    rcases h.shown pos cf hcf hpos hpending with hq | ⟨geo, hbank, hshown⟩
    · exact absurd (hqueued hq) hwaits
    · exact ⟨geo, hgeo.trans hbank, by rw [hshown, hcubes hwaits]⟩

/-! ### Edits -/

variable {spot : IVec3} {block : UInt32} {neighbors userPower automata : Bool}

/-- An edit asks for a chunk: it is near the cell, or its light comes to a neighbor of the cell and the
edit is not about light. -/
def AskedByEdit (cs : ChunkSystem) (spot : IVec3) (block : UInt32) (neighbors automata : Bool) (pos : IVec2) : Prop :=
  pos ∈ nearChunks spot neighbors ∨
    cs.editsLight spot block = false ∧ automata = false ∧ Blocks.isTransparent (block &&& Blocks.blockIdBits) = false ∧
      pos ∈ implicatedChunks cs.lightmap spot

/-- **What waits after an edit**, of whatever kind it is. -/
theorem asks_setBlockAndQueueRerender (e : Entropy) (hb : cs.registry.Bijective) (spot : IVec3) (block : UInt32)
    (neighbors userPower automata : Bool) :
    Asks cs (cs.setBlockAndQueueRerender e spot block neighbors userPower automata)
      (cs.AskedByEdit spot block neighbors automata) := by
  have hset := asks_setBlock cs spot block userPower
  have hlightmap : (cs.setBlock spot block userPower).lightmap = cs.lightmap := by
    unfold setBlock setBlockNoSound
    cases userPower <;> rfl
  -- the chunks from which light comes to the neighbors are asked for first
  have hfirst : ∀ b : Bool, Asks (cs.setBlock spot block userPower)
      (if b then (e.chunks.iter (implicatedChunks (cs.setBlock spot block userPower).lightmap spot)).foldl
        (fun cs i => cs.queueRerenderWithKey i true true) (cs.setBlock spot block userPower)
      else cs.setBlock spot block userPower)
      fun pos => b = true ∧ pos ∈ implicatedChunks cs.lightmap spot := by
    intro b
    cases b with
    | true =>
      rw [if_pos rfl, hlightmap]
      have h := asks_foldl (hset.registry ▸ hb) (e.chunks.iter (implicatedChunks cs.lightmap spot)) true true
      refine ⟨h.registry, fun pos hpos => ?_⟩
      rw [h.queued pos hpos, IterOrder.mem_iter, eq_self_iff_true, true_and]
    | false => exact ⟨rfl, fun pos _ => by simp⟩
  have hmid := hset.trans (hfirst (!cs.editsLight spot block && !automata &&
    !Blocks.isTransparent (block &&& Blocks.blockIdBits)))
  -- then those near the cell
  have hnear : ∀ (mid : ChunkSystem) (light : Bool), mid.registry.Bijective → Asks mid
      (if neighbors then (e.chunks.iter (neighborChunks spot)).foldl (fun cs i => cs.queueRerenderWithKey i userPower light) mid
        else mid.queueRerender spot userPower light)
      (· ∈ nearChunks spot neighbors) := by
    intro mid light hb
    cases neighbors with
    | true =>
      have h := asks_foldl hb (e.chunks.iter (neighborChunks spot)) userPower light
      refine ⟨h.registry, fun pos hpos => ?_⟩
      rw [if_pos rfl, h.queued pos hpos, IterOrder.mem_iter]
      rfl
    | false => exact asks_foldl hb [spotToChunkPos spot] userPower light
  have hall := hmid.trans (hnear _ (cs.editsLight spot block) (hmid.registry ▸ hb))
  refine ⟨hall.registry, fun pos hpos => (hall.queued pos hpos).trans (or_congr_right ?_)⟩
  unfold AskedByEdit
  simp only [Bool.and_eq_true, Bool.not_eq_true', false_or, and_assoc]
  exact or_comm

/-- An edit asks for the chunks in which it can be seen. -/
def EditNoticed (cs : ChunkSystem) (spot : IVec3) (block : UInt32) (neighbors userPower automata : Bool) : Prop :=
  ∀ pos ∈ cs.takencare, ¬ cs.Queued pos → ¬ cs.AskedByEdit spot block neighbors automata pos →
    ¬ cs.Seen (cs.setBlock spot block userPower).blockat pos

/-- An edit that asks for the neighbors is not noticed only if it fills or clears a cell that darkens a face of a chunk
that is not asked for. -/
theorem editNoticed_iff (cs : ChunkSystem) (spot : IVec3) (block : UInt32) (userPower automata : Bool) :
    cs.EditNoticed spot block true userPower automata ↔
      (cs.Flips spot block userPower → ∀ pos ∈ cs.takencare, ¬ cs.Queued pos → ¬ cs.AskedByEdit spot block true automata pos →
        ¬ cs.Shades spot pos) := by
  have hblockat := (edited .plain cs spot block true userPower automata).blockat
  have hflips : cs.Flips spot block userPower ↔
      ¬ (cs.blockat spot = 0 ↔ (cs.setBlock spot block userPower).blockat spot = 0) := by
    rw [← hblockat]
    exact flips_iff .plain cs spot block true userPower automata
  have hother : ∀ x, x ≠ spot → cs.blockat x = (cs.setBlock spot block userPower).blockat x := by
    intro x hx
    rw [← hblockat]
    exact blockat_edit_of_ne .plain cs block true userPower automata hx
  constructor
  · intro hnoticed hflip pos hpos hwaits hasked hshades
    exact hnoticed pos hpos hwaits hasked (.inr ⟨spot, hflips.mp hflip, hshades⟩)
  · rintro h pos hpos hwaits hasked (⟨x, hne, hnear⟩ | ⟨x, hflip, hshades⟩)
    · obtain rfl : x = spot := by
        by_contra hx
        exact hne (hother x hx)
      exact hasked (.inl (mem_neighborChunks.mpr hnear))
    · obtain rfl : x = spot := by
        by_contra hx
        exact hflip (by rw [hother x hx])
      exact h (hflips.mpr hflip) pos hpos hwaits hasked hshades

/-- **An edit** keeps the picture current, but for what waits. -/
theorem CurrentBut.edit (h : cs.CurrentBut ∅) (e : Entropy) (hb : cs.registry.Bijective)
    (hnoticed : cs.EditNoticed spot block neighbors userPower automata) :
    (cs.setBlockAndQueueRerender e spot block neighbors userPower automata).CurrentBut ∅ := by
  have hedit := edited e cs spot block neighbors userPower automata
  have hasks := asks_setBlockAndQueueRerender e hb spot block neighbors userPower automata
  obtain ⟨user, background, heq⟩ := asked_edit e cs spot block neighbors userPower automata
  have hgeo : (cs.setBlockAndQueueRerender e spot block neighbors userPower automata).geobank = cs.geobank := by
    rw [heq]
    unfold setBlock setBlockNoSound
    cases userPower <;> rfl
  have htaken : (cs.setBlockAndQueueRerender e spot block neighbors userPower automata).takencare = cs.takencare :=
    congrArg Registry.takencare hasks.registry
  have hchunks : (cs.setBlockAndQueueRerender e spot block neighbors userPower automata).chunks = cs.chunks :=
    congrArg Registry.chunks hasks.registry
  refine h.of_kept ?_ (hedit.lightmap ▸ h.lightpassed) fun pos cf hcf _ _ => ?_
  · intro pos cf hcf
    rw [htaken] at hcf
    rw [hchunks]
    exact h.held pos cf hcf
  · rw [htaken] at hcf
    have hpos : pos ∈ cs.takencare := Finmap.mem_iff.mpr ⟨cf, hcf⟩
    have hqueued := hasks.queued pos hpos
    refine ⟨hcf, Set.notMem_empty _, fun hq => hqueued.mpr (.inl hq), by rw [hgeo], fun hwaits => ?_⟩
    rw [hqueued, not_or] at hwaits
    rw [hedit.lightmap, hedit.blockat]
    exact cubes_of_not_seen (hnoticed pos hpos hwaits.1 hwaits.2) cs.lightmap

/-! ### Rebuilds -/

/-- The cubes of a rebuild are those of the chunk. -/
def DrawsCubes (env : Externals) : Prop :=
  ∀ blockat lightmap pos rng, (env.mesh blockat lightmap pos rng).cubeStreams = (cubes blockat lightmap pos).streams

/-- A pass asks for the chunks in which it can be seen: where its light does not come to, the faces
towards other chunks have the light in front of them that they had. -/
def PassNoticed (cs : ChunkSystem) (c : IVec2) : Prop :=
  ∀ pos ∈ cs.takencare, pos ≠ c → ¬ cs.Queued pos → ¬ cs.Touches c pos → ∀ spot ∈ chunkCells pos, ∀ side : CubeSide,
    faceDrawn cs.blockat spot side = true → spotToChunkPos (spot + side.offset) ≠ pos →
      cs.lightmap.sum (spot + side.offset) = LightColor.capped (cs.relitColors c (spot + side.offset))

/-- What a pass does to the picture of another chunk. -/
theorem cubes_lightpassOnChunk (h : Lightpassed cs.lightmap) (e : Entropy) {c : IVec2} (hnoticed : cs.PassNoticed c)
    (hpos : pos ∈ cs.takencare) (hne : pos ≠ c) (hqueued : ¬ cs.Queued pos) (htouches : ¬ cs.Touches c pos) :
    cubes cs.blockat cs.lightmap pos = cubes cs.blockat (cs.lightpassOnChunk e c).lightmap pos := by
  apply cubes_of_light
  rintro ⟨spot, hspot, side, hdrawn, hdiffers⟩
  apply hdiffers
  by_cases hfront : spotToChunkPos (spot + side.offset) = pos
  · exact (sum_of_not_touches e h htouches hfront (passable_of_faceDrawn hdrawn)).symm
  · rw [sum_lightpassOnChunk e h.wellLit]
    exact hnoticed pos hpos hne hqueued htouches spot hspot side hdrawn hfront

variable {index : ℕ} {light : Bool} {chunk : ChunkFacade}

/-- **A rebuild** shows the chunk of the slot, and keeps the picture current, but for what waits. -/
theorem CurrentBut.rebuild (h : cs.CurrentBut {chunk.pos}) (henv : DrawsCubes env)
    (hslot : cs.chunks[index]? = some chunk) (hnoticed : light = true → cs.PassNoticed chunk.pos)
    (hr : cs.rebuildIndex env e index userPower light = .ok cs') (hb : cs'.registry.Bijective) : cs'.CurrentBut ∅ := by
  obtain ⟨chunk', geo, hslot', hbank, heq⟩ := rebuildIndex_spec hr
  obtain rfl : chunk = chunk' := Option.some.inj (hslot.symm.trans hslot')
  have hblockat : cs'.blockat = cs.blockat := by
    rw [heq]
    rfl
  have hlightmap : cs'.lightmap = (cs.lightpassIf e light chunk.pos).lightmap := by rw [heq]
  have hlightpassed : Lightpassed cs'.lightmap := by
    rw [hlightmap]
    unfold lightpassIf
    split
    · exact .pass e cs chunk.pos h.lightpassed
    · exact h.lightpassed
  have hlookup : ∀ pos, pos ≠ chunk.pos → cs'.takencare.lookup pos = cs.takencare.lookup pos := by
    intro pos hne
    rw [heq]
    dsimp only
    split
    · rfl
    · exact Finmap.lookup_insert_of_ne _ hne
  have hheld : ∀ pos cf, cs'.takencare.lookup pos = some cf → ∃ c, cs'.chunks[cf.geoIndex]? = some c ∧ c.pos = pos :=
    fun pos cf hcf => (hb.held pos cf hcf).2
  -- all other chunks are asked for, or are as they were
  have hothers : cs'.CurrentBut {chunk.pos} := by
    refine h.of_kept hheld hlightpassed fun pos cf hcf hpos hne => ?_
    have hne : pos ≠ chunk.pos := hne
    rw [hlookup pos hne] at hcf
    have hmem : pos ∈ cs.takencare := Finmap.mem_iff.mpr ⟨cf, hcf⟩
    obtain ⟨c, hc, hcpos⟩ := h.held pos cf hcf
    have hindex : cf.geoIndex ≠ index := by
      intro heq
      rw [heq, hslot] at hc
      cases hc
      exact hne hcpos.symm
    have hgrow : ∀ r, cs.requests r ⊆ cs'.requests r := by
      rw [heq]
      intro r
      cases r with
      | user =>
        show cs.userRebuildRequests ⊆ (cs.lightpassIf e light chunk.pos).userRebuildRequests
        unfold lightpassIf
        split
        · rw [userRebuildRequests_lightpassOnChunk]
          exact List.subset_append_left _ _
        · exact List.Subset.refl _
      | _ => exact List.Subset.refl _
    have hwaits : cs.Queued pos → cs'.Queued pos := fun hq => hq.mono (hlookup pos hne) hgrow
    refine ⟨hcf, hne, hwaits, ?_, fun hnot => ?_⟩
    · rw [heq]
      exact List.getElem?_set_ne (Ne.symm hindex)
    · rw [hblockat, hlightmap]
      cases light with
      | false => rfl
      | true =>
        refine cubes_lightpassOnChunk h.lightpassed e (hnoticed rfl) hmem hne (fun hq => hnot (hwaits hq)) fun htouches => ?_
        -- a chunk that the light touches is asked for
        refine hnot (queued_iff.mpr ⟨cf, (hlookup pos hne).trans hcf, .user, ?_⟩)
        rw [heq]
        show cf.geoIndex ∈ (cs.lightpassOnChunk e chunk.pos).userRebuildRequests
        rw [userRebuildRequests_lightpassOnChunk]
        refine List.mem_append_right _ (mem_slotsOf.mpr ⟨pos, ?_, cf, hcf, rfl⟩)
        exact (IterOrder.mem_iter _).mpr ((mem_implicated e h.lightpassed chunk.pos pos).mpr ⟨Ne.symm hne, htouches⟩)
  refine ⟨hheld, hlightpassed, fun pos cf hcf hpos _ => ?_⟩
  by_cases hne : pos = chunk.pos
  · subst hne
    right
    have hslot' : cs'.registry.chunks[index]? = some { chunk with used := true } := by
      rw [heq]
      exact List.getElem?_set_self (List.getElem?_eq_some_iff.mp hslot).1
    obtain ⟨-, c, hc, hcpos⟩ := hb.held chunk.pos cf hcf
    have hindex : cf.geoIndex = index := hb.unique hc hslot' hcpos (hcpos ▸ hpos)
    refine ⟨{ geo with mesh := env.mesh cs.blockat (cs.lightpassIf e light chunk.pos).lightmap chunk.pos e.rng }, ?_, ?_⟩
    · rw [hindex, heq]
      exact List.getElem?_set_self (List.getElem?_eq_some_iff.mp hbank).1
    · rw [hblockat, hlightmap]
      exact henv _ _ _ _
  · exact hothers.shown pos cf hcf hpos hne

/-- Whoever waits for a request that is taken, it is the chunk of its slot. -/
theorem CurrentBut.pop (h : cs.CurrentBut ∅) {r : Request} {rest : List ℕ} (hq : cs.requests r = index :: rest)
    (hslot : cs.chunks[index]? = some chunk) : (cs.setRequests r rest).CurrentBut {chunk.pos} := by
  have hsame : (cs.setRequests r rest).takencare = cs.takencare ∧ (cs.setRequests r rest).chunks = cs.chunks ∧
      (cs.setRequests r rest).geobank = cs.geobank ∧ (cs.setRequests r rest).lightmap = cs.lightmap ∧
      (cs.setRequests r rest).blockat = cs.blockat := by
    cases r <;> exact ⟨rfl, rfl, rfl, rfl, rfl⟩
  obtain ⟨htaken, hchunks, hgeo, hlightmap, hblockat⟩ := hsame
  refine h.of_kept (by rw [htaken, hchunks]; exact h.held) (by rw [hlightmap]; exact h.lightpassed)
    fun pos cf hcf _ hne => ?_
  rw [htaken] at hcf
  refine ⟨hcf, Set.notMem_empty _, fun hqueued => ?_, by rw [hgeo], fun _ => by rw [hlightmap, hblockat]⟩
  rw [queued_iff] at hqueued ⊢
  obtain ⟨cf', hcf', r', hr'⟩ := hqueued
  obtain rfl : cf = cf' := Option.some.inj (hcf.symm.trans hcf')
  refine ⟨cf, htaken ▸ hcf, r', ?_⟩
  rw [requests_setRequests]
  split
  · next heq =>
    rw [heq, hq] at hr'
    refine (List.mem_cons.mp hr').resolve_left fun hindex => hne ?_
    obtain ⟨c, hc, hcpos⟩ := h.held pos cf hcf
    rw [hindex, hslot] at hc
    cases hc
    exact hcpos.symm
  · exact hr'

/-! ### Moves -/

variable {cpos : IVec2}

/-- What is generated is asked for in the chunks that it is stamped into. -/
theorem queued_generateChunk (hg : cs.generateChunk env e cpos = .ok cs') (hpos : pos ∈ cs.takencare)
    (h : cs.Queued pos ∨ ∃ x ∈ cs.stamped env cpos, spotToChunkPos x = pos) : cs'.Queued pos := by
  obtain ⟨out, hout⟩ := generateChunk_eq env cs cpos
  rw [hout e cs ⟨rfl, rfl, rfl⟩] at hg
  cases out with
  | error p => cases hg
  | ok rows =>
    cases hg
    rcases h with hq | ⟨x, hx, rfl⟩
    · refine hq.mono rfl fun r => ?_
      cases r <;> first | exact List.Subset.refl _ | exact List.subset_append_left _ _
    · obtain ⟨cf, hcf⟩ := Finmap.mem_iff.mp hpos
      refine queued_iff.mpr ⟨cf, hcf, .gen, List.mem_append_right _ (mem_slotsOf.mpr ⟨spotToChunkPos x, ?_, cf, hcf, rfl⟩)⟩
      have hstamped : cs.stamped env cpos = HashMap.insertAll rows ∅ := by
        rw [stamped, hout .plain { cs with nonuserdatamap := ∅ } ⟨rfl, rfl, rfl⟩]
        rfl
      have hrow : ∃ row ∈ rows, row.1 = x := by
        by_contra hnone
        push Not at hnone
        rw [hstamped, ← Finmap.lookup_isSome, HashMap.lookup_insertAll_of_notMem fun v hv => hnone _ hv rfl] at hx
        simp at hx
      obtain ⟨row, hrow, rfl⟩ := hrow
      rw [IterOrder.mem_iter, foldl_iff_exists (fun imp : HashSet IVec2 => spotToChunkPos row.1 ∈ imp) (· = spotToChunkPos row.1)]
      · exact .inr ⟨spotToChunkPos row.1, List.mem_map_of_mem hrow, rfl⟩
      · intro imp c
        rw [List.mem_insert_iff, or_comm, eq_comm]

/-- The blocks when the structures of a chunk have been stamped. -/
def blockatStamped (env : Externals) (cs : ChunkSystem) (cpos : IVec2) (x : IVec3) : UInt32 :=
  if x ∈ cs.userdatamap then cs.blockat x else ((cs.stamped env cpos).lookup x).getD (cs.blockat x)

theorem blockat_generateChunk_eq (hg : cs.generateChunk env e cpos = .ok cs') :
    cs'.blockat = cs.blockatStamped env cpos := by
  funext x
  rw [blockat_generateChunk hg x, blockatStamped]

/-- A generation asks for the chunks in which it can be seen. -/
def StampsNoticed (env : Externals) (cs : ChunkSystem) (cpos : IVec2) : Prop :=
  ∀ pos ∈ cs.takencare, ¬ cs.Queued pos → (∀ x ∈ cs.stamped env cpos, spotToChunkPos x ≠ pos) →
    ¬ cs.Seen (cs.blockatStamped env cpos) pos

/-- **A generation** keeps the picture current, but for what waits. -/
theorem CurrentBut.generate (h : cs.CurrentBut pending) (hnoticed : cs.StampsNoticed env cpos)
    (hg : cs.generateChunk env e cpos = .ok cs') : cs'.CurrentBut pending := by
  have hblockat := blockat_generateChunk_eq hg
  have hqueued : ∀ pos, pos ∈ cs.takencare → cs.Queued pos ∨ (∃ x ∈ cs.stamped env cpos, spotToChunkPos x = pos) →
      cs'.Queued pos := fun _ => queued_generateChunk hg
  obtain ⟨rows, slots, heq, -⟩ := generateChunk_spec hg
  refine h.of_kept (by rw [heq]; exact h.held) (by rw [heq]; exact h.lightpassed) fun pos cf hcf _ hne => ?_
  have hcf : cs.takencare.lookup pos = some cf := by rwa [heq] at hcf
  have hpos : pos ∈ cs.takencare := Finmap.mem_iff.mpr ⟨cf, hcf⟩
  refine ⟨hcf, hne, fun hq => hqueued pos hpos (.inl hq), by rw [heq], fun hwaits => ?_⟩
  have hlightmap : cs'.lightmap = cs.lightmap := by rw [heq]
  rw [hblockat, hlightmap]
  refine cubes_of_not_seen (hnoticed pos hpos (fun hq => hwaits (hqueued pos hpos (.inl hq))) fun x hx hxpos => ?_) _
  exact hwaits (hqueued pos hpos (.inr ⟨x, hx, hxpos⟩))

/-- When a slot is given another chunk, all others are as they were. -/
theorem CurrentBut.place (h : cs.CurrentBut ∅) (hb : cs.registry.Bijective) (hp : cs.place index cpos = .ok cs') :
    cs'.CurrentBut ∅ := by
  obtain ⟨chunk, geo, hslot, hbank, heq⟩ := place_spec hp
  have hgeo : geo.pos = chunk.pos := by
    have hpos := hb.positions index chunk hslot
    rw [show cs.registry.positions[index]? = some geo.pos from by rw [registry, List.getElem?_map, hbank]; rfl] at hpos
    exact Option.some.inj hpos
  -- what is still registered is in another slot
  have hother : ∀ pos cf, cs'.takencare.lookup pos = some cf → cs.takencare.lookup pos = some cf ∧ cf.geoIndex ≠ index := by
    intro pos cf hcf
    rw [heq, HashMap.lookup_erase'] at hcf
    split at hcf
    · cases hcf
    · next hne =>
      refine ⟨hcf, fun hindex => hne ?_⟩
      obtain ⟨c, hc, hcpos⟩ := h.held pos cf hcf
      rw [hindex, hslot] at hc
      cases hc
      rw [← hcpos, hgeo]
  refine h.of_kept ?_ (by rw [heq]; exact h.lightpassed) fun pos cf hcf _ _ => ?_
  · intro pos cf hcf
    obtain ⟨hcf, hindex⟩ := hother pos cf hcf
    rw [heq]
    dsimp only
    rw [List.getElem?_set_ne (Ne.symm hindex)]
    exact h.held pos cf hcf
  · have hsame := (hother pos cf hcf).1
    refine ⟨hsame, Set.notMem_empty _, fun hq => hq.mono (hcf.trans hsame.symm) fun r => ?_, ?_, fun _ => ?_⟩
    · rw [heq]
      cases r <;> exact List.Subset.refl _
    · rw [heq]
      exact List.getElem?_set_ne (Ne.symm (hother pos cf hcf).2)
    · rw [heq]
      rfl

/-- A move asks for the chunks in which it can be seen: what is generated, and the pass if the chunk was
never lit. -/
def MoveNoticed (env : Externals) (cs : ChunkSystem) (index : ℕ) (cpos : IVec2) : Prop :=
  (cpos ∈ cs.takencare → cpos ∉ cs.hashadinitiallightpass → cs.PassNoticed cpos) ∧
    (cpos ∉ cs.takencare → ∀ placed, cs.place index cpos = .ok placed → placed.StampsNoticed env cpos ∧
      ∀ e generated, placed.generateChunk env e cpos = .ok generated →
        cpos ∉ cs.hashadinitiallightpass → generated.PassNoticed cpos)

theorem CurrentBut.mono (h : cs.CurrentBut pending) (hsub : pending ⊆ pending') : cs.CurrentBut pending' :=
  ⟨h.held, h.lightpassed, fun pos cf hcf hpos hne => h.shown pos cf hcf hpos fun hmem => hne (hsub hmem)⟩

/-- **A move** shows the new chunk, and keeps the picture current, but for what waits. -/
theorem CurrentBut.move (h : cs.CurrentBut ∅) (henv : DrawsCubes env) (hb : cs.registry.Bijective)
    (hnoticed : cs.MoveNoticed env index cpos) (hmove : cs.moveAndRebuild env e index cpos = .ok cs') : cs'.CurrentBut ∅ := by
  have hb' := hb.move (registry_moveAndRebuild hmove)
  rcases moveAndRebuild_cases hmove with ⟨cf, hcf, hr⟩ | ⟨hnone, placed, generated, hp, hg, hr⟩
  · obtain ⟨-, c, hc, rfl⟩ := hb.held cpos cf hcf
    refine CurrentBut.rebuild (h.mono (Set.empty_subset _)) henv hc (fun hlight => ?_) hr hb'
    exact hnoticed.1 (Finmap.mem_iff.mpr ⟨cf, hcf⟩) (of_decide_eq_true hlight)
  · obtain ⟨hstamps, hpass⟩ := hnoticed.2 (Finmap.lookup_eq_none.mp hnone) placed hp
    have hgenerated : generated.CurrentBut ∅ := (h.place hb hp).generate hstamps hg
    obtain ⟨chunk, geo, hslot, -, hplaced⟩ := place_spec hp
    obtain ⟨rows, slots, hgen, -⟩ := generateChunk_spec hg
    have hheld : generated.chunks[index]? = some { chunk with pos := cpos } := by
      rw [hgen, hplaced]
      exact List.getElem?_set_self (List.getElem?_eq_some_iff.mp hslot).1
    refine CurrentBut.rebuild (hgenerated.mono (Set.empty_subset _)) henv hheld (fun hlight => ?_) hr hb'
    exact hpass e generated hg (of_decide_eq_true hlight)

end ChunkSystem

/-! ### Runs -/

namespace Picture

open ChunkSystem Cubes

/-- What can happen. -/
inductive Event where
  /-- A block is set, and rebuilds are asked for. -/
  | edit (spot : IVec3) (block : UInt32) (neighbors userPower automata : Bool)
  /-- A slot is moved to a chunk. -/
  | move (index : ℕ) (cpos : IVec2)
  /-- The first request of a queue is served. -/
  | serve (r : Request)

/-- An event happens. -/
inductive Happens (env : Externals) : ChunkSystem → Event → ChunkSystem → Prop
  /-- An edit. -/
  | edit (e : Entropy) (cs : ChunkSystem) (spot : IVec3) (block : UInt32) (neighbors userPower automata : Bool) :
      Happens env cs (.edit spot block neighbors userPower automata)
        (cs.setBlockAndQueueRerender e spot block neighbors userPower automata)
  /-- A move. -/
  | move {cs cs' : ChunkSystem} {index : ℕ} {cpos : IVec2} (e : Entropy) :
      cs.moveAndRebuild env e index cpos = .ok cs' → Happens env cs (.move index cpos) cs'
  /-- The first request is taken from its queue and served: the requests for light are lit anew, and the user does not
  wait for those of the background. -/
  | serve {cs cs' : ChunkSystem} {index : ℕ} {rest : List ℕ} {r : Request} (e : Entropy) :
      cs.requests r = index :: rest →
      (cs.setRequests r rest).rebuildIndex env e index (r ≠ .background) (r = .light) = .ok cs' → Happens env cs (.serve r) cs'

/-- An event asks for all chunks in which it can be seen, unless they wait already. -/
def Allowed (env : Externals) (cs : ChunkSystem) : Event → Prop
  | .edit spot block neighbors userPower automata => cs.EditNoticed spot block neighbors userPower automata
  | .move index cpos => cs.MoveNoticed env index cpos
  | .serve r => r = .light → ∀ index rest chunk, cs.requests r = index :: rest → cs.chunks[index]? = some chunk →
      (cs.setRequests r rest).PassNoticed chunk.pos

variable {env : Externals} {cs cs' : ChunkSystem}

theorem current_of_fresh (h : Fresh env cs) : cs.CurrentBut ∅ ∧ cs.registry.Bijective := by
  obtain ⟨radius, seed, noisetype, headless, models, rfl⟩ := h
  refine ⟨⟨?_, .dark, ?_⟩, bijective_new env radius seed noisetype headless models⟩
  · intro pos cf hcf
    simp [new] at hcf
  · intro pos cf hcf
    simp [new] at hcf

/-- **Every event** that is noticed keeps the picture current, but for what waits. -/
theorem current_step (henv : DrawsCubes env) (h : cs.CurrentBut ∅ ∧ cs.registry.Bijective) {event : Event}
    (hallowed : Allowed env cs event) (hhappens : Happens env cs event cs') : cs'.CurrentBut ∅ ∧ cs'.registry.Bijective := by
  obtain ⟨hcurrent, hb⟩ := h
  cases hhappens with
  | edit e _ spot block neighbors userPower automata =>
    refine ⟨hcurrent.edit e hb hallowed, ?_⟩
    rw [(edited e cs spot block neighbors userPower automata).registry]
    exact hb
  | move e hmove => exact ⟨hcurrent.move henv hb hallowed hmove, hb.move (registry_moveAndRebuild hmove)⟩
  | @serve _ _ index rest r e hq hr =>
    have hregistry : (cs.setRequests r rest).registry = cs.registry := by cases r <;> rfl
    have hb' : cs'.registry.Bijective := (hregistry ▸ hb).rebuild (registry_rebuildIndex hr)
    obtain ⟨chunk, geo, hslot, -, -⟩ := rebuildIndex_spec hr
    have hslot' : cs.chunks[index]? = some chunk := by
      rw [show cs.chunks = (cs.setRequests r rest).chunks from by cases r <;> rfl]
      exact hslot
    refine ⟨CurrentBut.rebuild (hcurrent.pop hq hslot') henv hslot (fun hlight => ?_) hr hb', hb'⟩
    exact hallowed (of_decide_eq_true hlight) index rest chunk hq hslot'

/-- **The picture is current** in every run of events that are noticed: the vertex data of every loaded chunk have the
cubes that a rebuild would draw now, or its slot waits in a queue; and so, when no request is left, all of them
have. -/
theorem picture_current (henv : DrawsCubes env) (h : Reached (Fresh env) (Allowed env) (Happens env) cs) :
    (∀ pos cf, cs.takencare.lookup pos = some cf → pos ≠ defaultPos → cs.Queued pos ∨ cs.Shows pos cf) ∧
    ((∀ r, cs.requests r = []) → ∀ pos cf, cs.takencare.lookup pos = some cf → pos ≠ defaultPos → cs.Shows pos cf) := by
  have hcurrent : cs.CurrentBut ∅ ∧ cs.registry.Bijective :=
    h.invariant (fun _ => current_of_fresh) fun _ _ _ ih hallowed hhappens => current_step henv ih hallowed hhappens
  have hshown := fun pos cf hcf hpos => hcurrent.1.shown pos cf hcf hpos (Set.notMem_empty pos)
  refine ⟨hshown, fun hempty pos cf hcf hpos => (hshown pos cf hcf hpos).resolve_left fun hqueued => ?_⟩
  obtain ⟨_, _, r, hr⟩ := queued_iff.mp hqueued
  rw [hempty r] at hr
  cases hr

theorem drawsCubes_onlyCubes : DrawsCubes onlyCubes := by
  intro blockat lightmap pos rng
  simp only [onlyCubes, Mesh.cubeStreams, streams]

/-- A world of air, of which one chunk is loaded. -/
def oneChunk : ChunkSystem :=
  let cs := new onlyCubes 1 0 0 false
  let mesh := onlyCubes.mesh cs.blockat ∅ ⟨0, 0⟩ Entropy.plain.rng
  { cs with
    takencare := (cs.takencare.erase defaultPos).insert ⟨0, 0⟩ ⟨0, true, ⟨0, 0⟩⟩
    geobank := cs.geobank.set 0 ⟨⟨0, 0⟩, mesh⟩
    chunks := cs.chunks.set 0 ⟨0, true, ⟨0, 0⟩⟩
    finishedGeoQueue := cs.finishedGeoQueue ++ [ReadyMesh.new 0 ⟨0, 0⟩ mesh]
    hashadinitiallightpass := cs.hashadinitiallightpass.insert ⟨0, 0⟩ true }

/-- With no chunk loaded, everything is noticed. -/
theorem moveNoticed_of_empty {index : ℕ} {cpos : IVec2} (h : cs.takencare = ∅) : cs.MoveNoticed env index cpos := by
  refine ⟨fun hmem => ?_, fun _ placed hp => ?_⟩
  · rw [h] at hmem
    exact absurd hmem Finmap.notMem_empty
  · obtain ⟨chunk, geo, -, -, hplaced⟩ := place_spec hp
    have hnone : ∀ pos, pos ∉ placed.takencare := by
      intro pos hmem
      rw [hplaced, h] at hmem
      exact absurd (Finmap.mem_erase.mp hmem).2 Finmap.notMem_empty
    refine ⟨fun pos hmem => absurd hmem (hnone pos), fun e generated hg _ pos hmem => ?_⟩
    obtain ⟨rows, slots, hgen, -⟩ := generateChunk_spec hg
    rw [hgen] at hmem
    exact absurd hmem (hnone pos)

theorem reached_oneChunk : Reached (Fresh onlyCubes) (Allowed onlyCubes) (Happens onlyCubes) oneChunk := by
  have hnone : (new onlyCubes 1 0 0 false).takencare.lookup ⟨0, 0⟩ = none := rfl
  have hslot : (new onlyCubes 1 0 0 false).chunks[0]? = some ⟨0, false, defaultPos⟩ := rfl
  have hbank : (new onlyCubes 1 0 0 false).geobank[0]? = some ⟨defaultPos, .empty⟩ := rfl
  have hair : ∀ x, Blocks.isLight ((new onlyCubes 1 0 0 false).blockat x) = false := fun x =>
    show Blocks.isLight 0 = false from by decide
  have hmove : (new onlyCubes 1 0 0 false).moveAndRebuild onlyCubes .plain 0 ⟨0, 0⟩ = .ok oneChunk :=
    moveAndRebuild_of_dark hnone hslot hbank rfl rfl fun _ => hair
  exact .step (.move 0 ⟨0, 0⟩) (.start ⟨1, 0, 0, false, none, rfl⟩) (moveNoticed_of_empty rfl) (.move .plain hmove)

/-- A block is set in that chunk. -/
def oneBlock : ChunkSystem := oneChunk.setBlockAndQueueRerender .plain ⟨14, 0, 14⟩ 5 true true false

theorem reached_oneBlock : Reached (Fresh onlyCubes) (Allowed onlyCubes) (Happens onlyCubes) oneBlock := by
  refine .step (.edit ⟨14, 0, 14⟩ 5 true true false) reached_oneChunk (fun pos hpos _ hasked => ?_) (.edit ..)
  obtain rfl : pos = ⟨0, 0⟩ := by
    rcases Finmap.mem_insert.mp hpos with hpos | hpos
    · exact hpos
    · exact absurd (Finmap.mem_erase.mp hpos).2 Finmap.notMem_empty
  have hnear : (⟨0, 0⟩ : IVec2) ∈ nearChunks ⟨14, 0, 14⟩ true := self_mem_nearChunks ⟨14, 0, 14⟩ true
  exact absurd (.inl hnear) hasked

theorem requests_oneBlock (r : Request) : oneBlock.requests r = if r = .user then [0] else [] := by
  cases r <;> rfl

/-- When what waits has been served, the chunk is shown with the block. -/
theorem picture_current_oneBlock : ∃ cs : ChunkSystem, cs.blockat ⟨14, 0, 14⟩ = 5 ∧ (∀ r, cs.requests r = []) ∧
    cs.Shows ⟨0, 0⟩ ⟨0, true, ⟨0, 0⟩⟩ := by
  obtain ⟨cs, hr⟩ : ∃ cs, (oneBlock.setRequests .user []).rebuildIndex onlyCubes .plain 0 true false = .ok cs :=
    rebuildIndex_returns onlyCubes .plain (by decide) (by decide) true false
  have hreached : Reached (Fresh onlyCubes) (Allowed onlyCubes) (Happens onlyCubes) cs :=
    .step (.serve .user) reached_oneBlock (fun h => nomatch h) (.serve .plain (requests_oneBlock .user) hr)
  obtain ⟨chunk, geo, hslot, -, heq⟩ := rebuildIndex_spec hr
  have hempty : ∀ r, cs.requests r = [] := by
    intro r
    rw [heq]
    cases r <;> rfl
  have hlookup : cs.takencare.lookup ⟨0, 0⟩ = some ⟨0, true, ⟨0, 0⟩⟩ := by
    cases hslot
    rw [heq]
    rfl
  refine ⟨cs, ?_, hempty, (picture_current drawsCubes_onlyCubes hreached).2 hempty _ _ hlookup (by decide)⟩
  rw [heq]
  exact (blockat_edit .plain oneChunk ⟨14, 0, 14⟩ 5 true true false _).trans (if_pos ⟨rfl, .inl rfl⟩)

end Picture

end Distgard
