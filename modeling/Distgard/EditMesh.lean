import Distgard.CubeMesh
import Distgard.Relight

/-!
# Meshes after an edit

An edit asks for the chunks of the six neighbors of the cell to be rebuilt. The corners of a
face are darkened by the cells around them, and these may lie across the edge of a chunk.

## What is proved

* `cubes_congr` — what a rebuild reads of the blocks: the cells of the chunk, the cells in front
  of their faces, and how much the corners are darkened.
* `asks_edit` — which chunks wait for a rebuild after an edit.
* `cubes_edit` — a chunk that is overlooked, and of which the cell darkens no face, looks the same.
* `edit_fresh_iff` — an edit has all chunks rebuilt whose faces change, exactly when it neither
  fills nor clears the cell, or no chunk that it overlooks has a face that the cell darkens.
-/

namespace Distgard

open Lib

namespace Cubes

/-! ### What is drawn of a face -/

/-- A side of the block in a cell is drawn as that of a cube. -/
def faceDrawn (blockat : IVec3 → UInt32) (spot : IVec3) (side : CubeSide) : Bool :=
  let block := blockat spot &&& Blocks.blockIdBits
  let neighBlock := blockat (spot + side.offset) &&& Blocks.blockIdBits
  (Blocks.opaqueCube block && Blocks.showsOpaque neighBlock) ||
    (Blocks.transparentCube block && Blocks.showsTransparent block neighBlock)

/-- How much a corner of a face is darkened. -/
def ambient (blockat : IVec3 → UInt32) (spot : IVec3) (side : CubeSide) (ind : ℕ) : ℤ :=
  AMB_CHANGES.getD (ambChange blockat spot side ind) 0

/-- What is drawn of a side of the block in a cell: for each time its corners are drawn, how much
they are darkened. The surface of water is drawn twice, and not darkened from below. -/
def faceGeometry (blockat : IVec3 → UInt32) (spot : IVec3) (side : CubeSide) : List (List ℤ) :=
  if faceDrawn blockat spot side then
    (if blockat spot &&& Blocks.blockIdBits = 2 ∧ side = .TOP then [List.replicate 6 0] else []) ++
      [(List.range 6).map (ambient blockat spot side)]
  else []

/-- The faces of a chunk are not the same in two worlds. -/
def GeometryDiffers (blockat blockat' : IVec3 → UInt32) (pos : IVec2) : Prop :=
  ∃ spot ∈ chunkCells pos, ∃ side, faceGeometry blockat spot side ≠ faceGeometry blockat' spot side

variable {blockat blockat' : IVec3 → UInt32} {lightmap : LightMap} {pos : IVec2}

/-- The brightness of a corner depends on how much it is darkened. -/
theorem clampedLight_congr {spot : IVec3} {side : CubeSide} {ind : ℕ}
    (h : ambient blockat spot side ind = ambient blockat' spot side ind) (v : Corner) (hit : Bool) :
    clampedLight v (ambChange blockat spot side ind) hit = clampedLight v (ambChange blockat' spot side ind) hit := by
  unfold ambient at h
  unfold clampedLight
  rw [h]

/-- Two worlds are drawn alike at a side of a block. -/
structure SameFace (blockat blockat' : IVec3 → UInt32) (spot : IVec3) (side : CubeSide) : Prop where
  /-- The block in front of it is the same. -/
  front : blockat (spot + side.offset) = blockat' (spot + side.offset)
  /-- If it is drawn, its corners are darkened as much. -/
  ambient : faceDrawn blockat spot side = true → ∀ ind < 6, ambient blockat spot side ind = ambient blockat' spot side ind

theorem sameFace_of_geometry {spot : IVec3} {side : CubeSide} (hcell : blockat spot = blockat' spot)
    (hfront : blockat (spot + side.offset) = blockat' (spot + side.offset)) :
    faceGeometry blockat spot side = faceGeometry blockat' spot side ↔
      (faceDrawn blockat spot side = true → ∀ ind < 6, ambient blockat spot side ind = ambient blockat' spot side ind) := by
  have hdrawn : faceDrawn blockat spot side = faceDrawn blockat' spot side := by
    unfold faceDrawn
    rw [hcell, hfront]
  unfold faceGeometry
  rw [← hdrawn, ← hcell]
  cases faceDrawn blockat spot side with
  | false => simp
  | true => simp

/-- Faces that are darkened alike are packed alike. -/
theorem packed_congr {spot : IVec3} {side : CubeSide}
    (h : ∀ ind < 6, ambient blockat spot side ind = ambient blockat' spot side ind) (block : UInt32) (hit : Bool) :
    ((Cube.getSide side).zipIdx.map fun v =>
        packedCorner pos spot block side v.1 v.2 (clampedLight v.1 (ambChange blockat spot side v.2) hit)) =
      (Cube.getSide side).zipIdx.map fun v =>
        packedCorner pos spot block side v.1 v.2 (clampedLight v.1 (ambChange blockat' spot side v.2) hit) := by
  apply List.map_congr_left
  intro v hv
  have hind : v.2 < (Cube.getSide side).length := List.snd_lt_of_mem_zipIdx hv
  rw [Cube.length_getSide] at hind
  rw [clampedLight_congr (h v.2 hind)]

theorem opaqueSide_congr {spot : IVec3} {side : CubeSide} (hfull : Blocks.opaqueCube (blockat spot &&& Blocks.blockIdBits))
    (h : SameFace blockat blockat' spot side) (c : Cubes) :
    opaqueSide blockat lightmap pos spot (blockat spot &&& Blocks.blockIdBits) c side =
      opaqueSide blockat' lightmap pos spot (blockat spot &&& Blocks.blockIdBits) c side := by
  unfold opaqueSide
  simp only [← h.front]
  by_cases hshows : Blocks.showsOpaque (blockat (spot + side.offset) &&& Blocks.blockIdBits) = true
  · have hdrawn : faceDrawn blockat spot side = true := by
      unfold faceDrawn
      simp only [hfull, hshows, Bool.and_self, Bool.true_or]
    simp only [if_pos hshows, packed_congr (h.ambient hdrawn)]
  · simp only [if_neg hshows]

theorem transparentSide_congr {spot : IVec3} {side : CubeSide}
    (htransparent : Blocks.transparentCube (blockat spot &&& Blocks.blockIdBits))
    (h : SameFace blockat blockat' spot side) (c : Cubes) :
    transparentSide blockat lightmap pos spot (blockat spot &&& Blocks.blockIdBits) c side =
      transparentSide blockat' lightmap pos spot (blockat spot &&& Blocks.blockIdBits) c side := by
  unfold transparentSide
  simp only [← h.front]
  by_cases hshows : Blocks.showsTransparent (blockat spot &&& Blocks.blockIdBits)
      (blockat (spot + side.offset) &&& Blocks.blockIdBits) = true
  · have hdrawn : faceDrawn blockat spot side = true := by
      unfold faceDrawn
      simp only [htransparent, hshows, Bool.and_self, Bool.or_true]
    simp only [if_pos hshows, packed_congr (h.ambient hdrawn)]
  · simp only [if_neg hshows]

/-- A cell is drawn alike in two worlds in which it and its sides are alike. -/
theorem cell_congr {spot : IVec3} (hcell : blockat spot = blockat' spot) (h : ∀ side, SameFace blockat blockat' spot side)
    (c : Cubes) : cell blockat lightmap pos c spot = cell blockat' lightmap pos c spot := by
  unfold cell
  rw [← hcell]
  by_cases hair : blockat spot &&& Blocks.blockIdBits = 0
  · simp only [hair, ne_eq, not_true_eq_false, if_false]
  by_cases hmodel : Blocks.models.contains (blockat spot &&& Blocks.blockIdBits) = true
  · simp only [if_pos hmodel]
  simp only [if_pos hair, if_neg hmodel]
  have hsolid : (blockat spot &&& Blocks.blockIdBits != 0 && !Blocks.models.contains (blockat spot &&& Blocks.blockIdBits)) =
      true := by
    rw [Bool.eq_false_of_not_eq_true hmodel, Bool.not_false, Bool.and_true]
    exact bne_iff_ne.mpr hair
  by_cases hclear : (Blocks.isTransparent (blockat spot &&& Blocks.blockIdBits) ||
      Blocks.isSemiTransparent (blockat spot &&& Blocks.blockIdBits)) = true
  · rw [if_pos hclear, if_pos hclear]
    apply List.foldl_ext
    intro c side _
    apply transparentSide_congr _ (h side)
    rw [Blocks.transparentCube, hsolid, hclear, Bool.and_self]
  · rw [if_neg hclear, if_neg hclear]
    apply List.foldl_ext
    intro c side _
    apply opaqueSide_congr _ (h side)
    rw [Blocks.opaqueCube, hsolid, Bool.eq_false_of_not_eq_true hclear, Bool.not_false, Bool.and_self]

/-- **What is read of the blocks**: two worlds in which the cells of a chunk, the cells in front
of their faces and the geometry of the faces are the same have the same cubes drawn there. -/
theorem cubes_congr (hcell : ∀ spot ∈ chunkCells pos, blockat spot = blockat' spot)
    (hfront : ∀ spot ∈ chunkCells pos, ∀ side : CubeSide, blockat (spot + side.offset) = blockat' (spot + side.offset))
    (hgeometry : ¬ GeometryDiffers blockat blockat' pos) :
    cubes blockat lightmap pos = cubes blockat' lightmap pos := by
  apply List.foldl_ext
  intro c spot hspot
  rw [mem_columnCells, List.mem_reverse] at hspot
  have hspot : spot ∈ chunkCells pos := by
    rw [chunkCells, mem_columnCells]
    exact hspot
  apply cell_congr (hcell spot hspot)
  intro side
  refine ⟨hfront spot hspot side, ?_⟩
  apply (sameFace_of_geometry (hcell spot hspot) (hfront spot hspot side)).mp
  by_contra hne
  exact hgeometry ⟨spot, hspot, side, hne⟩

/-! ### What a cell darkens -/

/-- The cell darkens a corner of a side of another. -/
def Darkens (cell spot : IVec3) (side : CubeSide) : Prop :=
  ∃ ind < 6, cell - spot ∈ Cube.getAmbOcculSpots side ind

/-- The cells around a corner are three, and different. -/
theorem getAmbOcculSpots_facts (side : CubeSide) {ind : ℕ} (hind : ind < 6) :
    (Cube.getAmbOcculSpots side ind).Nodup ∧ (Cube.getAmbOcculSpots side ind).length = 3 := by
  revert ind
  cases side <;> decide

/-- Where at most one element of a list counts otherwise, the counts are the same when it
counts the same. -/
theorem countP_eq_iff {α : Type*} {p q : α → Bool} {l : List α} (hnodup : l.Nodup) {a : α}
    (h : ∀ b, b ≠ a → p b = q b) : l.countP p = l.countP q ↔ (a ∈ l → p a = q a) := by
  have hsame : ∀ l' : List α, a ∉ l' → l'.countP p = l'.countP q := by
    intro l' ha
    apply List.countP_congr
    intro b hb
    rw [h b (ne_of_mem_of_not_mem hb ha)]
  by_cases ha : a ∈ l
  · classical
    have hperm := List.perm_cons_erase ha
    have hrest := hsame (l.erase a) hnodup.not_mem_erase
    rw [hperm.countP_eq p, hperm.countP_eq q, List.countP_cons, List.countP_cons, hrest, Nat.add_left_cancel_iff,
      forall_prop_of_true ha]
    cases p a <;> cases q a <;> simp
  · exact ⟨fun _ h => absurd h ha, fun _ => hsame l ha⟩

/-- Corners are darkened as much when there are as many blocks around them. -/
theorem ambient_eq_iff {spot : IVec3} {side : CubeSide} {ind : ℕ} (hind : ind < 6) :
    ambient blockat spot side ind = ambient blockat' spot side ind ↔
      ambChange blockat spot side ind = ambChange blockat' spot side ind := by
  have hle : ∀ blockat : IVec3 → UInt32, ambChange blockat spot side ind ≤ 3 := by
    intro blockat
    unfold ambChange
    apply List.countP_le_length.trans
    rw [List.length_map, (getAmbOcculSpots_facts side hind).2]
  have hinj : ∀ m ≤ 3, ∀ n ≤ 3, AMB_CHANGES.getD m 0 = AMB_CHANGES.getD n 0 → m = n := by decide
  unfold ambient
  exact ⟨hinj _ (hle blockat) _ (hle blockat'), fun h => by rw [h]⟩

/-- A corner of a side is darkened as much when one block is set, unless the cell is around it and
was filled or cleared. -/
theorem ambient_set_iff {cell spot : IVec3} (hset : ∀ x, x ≠ cell → blockat x = blockat' x) {side : CubeSide} {ind : ℕ}
    (hind : ind < 6) : ambient blockat spot side ind = ambient blockat' spot side ind ↔
      (cell - spot ∈ Cube.getAmbOcculSpots side ind → (blockat cell = 0 ↔ blockat' cell = 0)) := by
  have hcell : cell - spot + spot = cell := by ext <;> simp
  have hother : ∀ vec, vec ≠ cell - spot → (blockat (vec + spot) != 0) = (blockat' (vec + spot) != 0) := by
    intro vec hvec
    rw [hset]
    rintro rfl
    apply hvec
    ext <;> simp
  rw [ambient_eq_iff hind, ambChange, ambChange, List.countP_map, List.countP_map]
  refine (countP_eq_iff (getAmbOcculSpots_facts side hind).1 hother).trans ?_
  apply forall_congr'
  intro _
  rw [hcell, Bool.eq_iff_iff, bne_iff_ne, bne_iff_ne, not_iff_not]

/-- **What setting a block changes of the faces of other cells**: a side of a cell that is neither
the one that was set nor behind it changes when it is drawn, the cell darkens it, and it was
filled or cleared. -/
theorem geometry_set_iff (cell : IVec3) {spot : IVec3} (hset : ∀ x, x ≠ cell → blockat x = blockat' x) {side : CubeSide}
    (hspot : spot ≠ cell) (hfront : spot + side.offset ≠ cell) :
    faceGeometry blockat spot side = faceGeometry blockat' spot side ↔
      (faceDrawn blockat spot side = true → Darkens cell spot side → (blockat cell = 0 ↔ blockat' cell = 0)) := by
  rw [sameFace_of_geometry (hset spot hspot) (hset _ hfront)]
  apply forall_congr'
  intro _
  constructor
  · rintro h ⟨ind, hind, hmem⟩
    exact (ambient_set_iff hset hind).mp (h ind hind) hmem
  · intro h ind hind
    rw [ambient_set_iff hset hind]
    intro hmem
    exact h ⟨ind, hind, hmem⟩

end Cubes

namespace ChunkSystem

open Cubes

/-! ### What waits for a rebuild -/

/-- A chunk waits to be rebuilt. -/
def Queued (cs : ChunkSystem) (pos : IVec2) : Prop :=
  Requested cs (cs.userRebuildRequests ++ cs.genRebuildRequests ++ cs.lightRebuildRequests ++ cs.backgroundRebuildRequests) pos

variable {e : Entropy} {cs : ChunkSystem} {spot : IVec3} {block : UInt32} {userPower automata : Bool}

/-- Chunks have been asked to be rebuilt; the loaded ones of them wait for it now. -/
structure Asks (cs cs' : ChunkSystem) (keys : IVec2 → Prop) : Prop where
  /-- The registry is as it was. -/
  registry : cs'.registry = cs.registry
  /-- What waits. -/
  queued : ∀ pos ∈ cs.takencare, (cs'.Queued pos ↔ cs.Queued pos ∨ keys pos)

theorem Asks.trans {cs cs' cs'' : ChunkSystem} {keys keys' : IVec2 → Prop} (h : Asks cs cs' keys) (h' : Asks cs' cs'' keys') :
    Asks cs cs'' fun pos => keys pos ∨ keys' pos where
  registry := h'.registry.trans h.registry
  queued := by
    intro pos hpos
    have htaken : cs'.takencare = cs.takencare := congrArg Registry.takencare h.registry
    rw [h'.queued pos (htaken ▸ hpos), h.queued pos hpos, or_assoc]

theorem requested_append {slots slots' : List ℕ} {pos : IVec2} :
    Requested cs (slots ++ slots') pos ↔ Requested cs slots pos ∨ Requested cs slots' pos := by
  unfold Requested
  simp only [List.mem_append, and_or_left, exists_or]

/-- Asking for the chunks of a list. -/
theorem asks_foldl (hb : cs.registry.Bijective) (keys : List IVec2) (userPower light : Bool) :
    Asks cs (keys.foldl (fun cs key => cs.queueRerenderWithKey key userPower light) cs) (· ∈ keys) := by
  rw [foldl_queueRerenderWithKey]
  have hslots : ∀ {pos}, pos ∈ cs.takencare → (pos ∈ keys ↔ Requested cs (cs.slotsOf keys) pos) := by
    intro pos hpos
    rw [requested_slotsOf hb, and_iff_right hpos]
  cases light with
  | true =>
    rw [if_pos rfl]
    refine ⟨rfl, fun pos hpos => ?_⟩
    show Requested cs _ pos ↔ Requested cs _ pos ∨ pos ∈ keys
    simp only [hslots hpos, requested_append]
    tauto
  | false =>
    cases userPower with
    | true =>
      rw [if_neg Bool.false_ne_true, if_pos rfl]
      refine ⟨rfl, fun pos hpos => ?_⟩
      show Requested cs _ pos ↔ Requested cs _ pos ∨ pos ∈ keys
      simp only [hslots hpos, requested_append]
      tauto
    | false =>
      rw [if_neg Bool.false_ne_true, if_neg Bool.false_ne_true]
      refine ⟨rfl, fun pos hpos => ?_⟩
      show Requested cs _ pos ↔ Requested cs _ pos ∨ pos ∈ keys
      simp only [hslots hpos, requested_append]
      tauto

/-- An edit overlooks a chunk: no neighbor of the cell lies in it, and it is not asked to be lit
anew. -/
structure Overlooks (cs : ChunkSystem) (spot : IVec3) (block : UInt32) (automata : Bool) (pos : IVec2) : Prop where
  /-- The neighbors lie in other chunks. -/
  near : ∀ side : CubeSide, spotToChunkPos (spot + side.offset) ≠ pos
  /-- No chunk is asked to be lit anew, or no light comes from this one to a neighbor. -/
  light : automata = true ∨ Blocks.isTransparent (block &&& Blocks.blockIdBits) = true ∨
    ∀ side : CubeSide, ∀ r ∈ cs.lightmap.rays (side.offset + spot), spotToChunkPos r.origin ≠ pos

/-- Setting a block asks for nothing. -/
theorem asks_setBlock (cs : ChunkSystem) (spot : IVec3) (block : UInt32) (userPower : Bool) :
    Asks cs (cs.setBlock spot block userPower) fun _ => False := by
  unfold setBlock setBlockNoSound
  cases userPower <;> exact ⟨rfl, fun _ _ => (iff_of_eq (or_false _)).symm⟩

/-- **What waits for a rebuild after an edit** that is not about light: what waited before, and
the loaded chunks that the edit does not overlook. -/
theorem asks_edit (e : Entropy) (hb : cs.registry.Bijective) (hlight : cs.editsLight spot block = false)
    (userPower automata : Bool) : Asks cs (cs.setBlockAndQueueRerender e spot block true userPower automata)
      fun pos => ¬ cs.Overlooks spot block automata pos := by
  have hset := asks_setBlock cs spot block userPower
  have hlightmap : (cs.setBlock spot block userPower).lightmap = cs.lightmap := by
    unfold setBlock setBlockNoSound
    cases userPower <;> rfl
  -- the chunks from which light comes to the neighbors are asked for first
  have hfirst : ∀ b : Bool, Asks (cs.setBlock spot block userPower)
      (if b then (e.chunks.iter (implicatedChunks (cs.setBlock spot block userPower).lightmap spot)).foldl
        (fun cs i => cs.queueRerenderWithKey i true true) (cs.setBlock spot block userPower)
      else cs.setBlock spot block userPower)
      fun pos => b = true ∧ pos ∈ implicatedChunks cs.lightmap spot := by
    intro b
    cases b with
    | true =>
      rw [if_pos rfl, hlightmap]
      have h := asks_foldl (hset.registry ▸ hb) (e.chunks.iter (implicatedChunks cs.lightmap spot)) true true
      refine ⟨h.registry, fun pos hpos => ?_⟩
      rw [h.queued pos hpos, IterOrder.mem_iter, eq_self_iff_true, true_and]
    | false =>
      rw [if_neg Bool.false_ne_true]
      refine ⟨rfl, fun pos _ => ?_⟩
      rw [eq_false_intro Bool.false_ne_true, false_and, or_false]
  have hmid := hset.trans (hfirst (!cs.editsLight spot block && !automata &&
    !Blocks.isTransparent (block &&& Blocks.blockIdBits)))
  have hall := hmid.trans (asks_foldl (hmid.registry ▸ hb) (e.chunks.iter (neighborChunks spot)) userPower
    (cs.editsLight spot block))
  refine ⟨hall.registry, fun pos hpos => ?_⟩
  refine (hall.queued pos hpos).trans (or_congr_right ?_)
  rw [hlight, IterOrder.mem_iter, mem_neighborChunks, mem_implicatedChunks]
  constructor
  · rintro ((hfalse | ⟨hasked, side, r, hr, hkey⟩) | ⟨side, hkey⟩) hover
    · exact hfalse
    · rcases hover.light with rfl | htransparent | hlight
      · simp at hasked
      · simp [htransparent] at hasked
      · exact hlight side r hr hkey
    · exact hover.near side hkey
  · intro hover
    by_contra hnot
    rw [not_or, not_or] at hnot
    obtain ⟨⟨-, hlit⟩, hnear⟩ := hnot
    apply hover
    refine ⟨fun side hkey => hnear ⟨side, hkey⟩, ?_⟩
    by_contra hlight
    rw [not_or, not_or] at hlight
    obtain ⟨hautomata, htransparent, hray⟩ := hlight
    push Not at hray
    refine hlit ⟨?_, hray⟩
    simp [hautomata, htransparent]

/-- A cell darkens a face of a chunk that is drawn. -/
def Shades (cs : ChunkSystem) (cell : IVec3) (pos : IVec2) : Prop :=
  ∃ spot ∈ chunkCells pos, ∃ side, faceDrawn cs.blockat spot side = true ∧ Darkens cell spot side

/-- What an edit does to the blocks. -/
theorem blockat_edit (e : Entropy) (cs : ChunkSystem) (spot : IVec3) (block : UInt32) (neighbors userPower automata : Bool)
    (x : IVec3) : (cs.setBlockAndQueueRerender e spot block neighbors userPower automata).blockat x =
      if x = spot ∧ (userPower = true ∨ spot ∉ cs.userdatamap) then block else cs.blockat x := by
  rw [(edited e cs spot block neighbors userPower automata).blockat, setBlock]
  cases userPower with
  | true =>
    rw [blockat_setBlockNoSound_user]
    simp
  | false =>
    rw [blockat_setBlockNoSound_nonuser]
    simp

/-- The edit fills the cell, or clears it. -/
def Flips (cs : ChunkSystem) (spot : IVec3) (block : UInt32) (userPower : Bool) : Prop :=
  (userPower = true ∨ spot ∉ cs.userdatamap) ∧ ¬ (cs.blockat spot = 0 ↔ block = 0)

/-- In a chunk that an edit overlooks lies neither the cell nor one that has it in front. -/
theorem Overlooks.ne {pos : IVec2} (h : cs.Overlooks spot block automata pos) {cell : IVec3} (hcell : cell ∈ chunkCells pos) :
    cell ≠ spot ∧ ∀ side : CubeSide, cell + side.offset ≠ spot := by
  obtain ⟨hpos, -⟩ := mem_chunkCells.mp hcell
  constructor
  · rintro rfl
    obtain ⟨side, hside⟩ := mem_neighborChunks.mp (self_mem_nearChunks cell true)
    exact h.near side (hside.trans hpos)
  · rintro side rfl
    apply h.near side.opposite
    have hback : cell + side.offset + side.opposite.offset = cell := by
      cases side <;> ext <;> simp [CubeSide.offset, CubeSide.opposite]
    rw [hback]
    exact hpos

/-- The edit changes no other cell. -/
theorem blockat_edit_of_ne (e : Entropy) (cs : ChunkSystem) (block : UInt32) (neighbors userPower automata : Bool)
    {x : IVec3} (hx : x ≠ spot) :
    cs.blockat x = (cs.setBlockAndQueueRerender e spot block neighbors userPower automata).blockat x := by
  rw [blockat_edit, if_neg fun h => hx h.1]

theorem flips_iff (e : Entropy) (cs : ChunkSystem) (spot : IVec3) (block : UInt32) (neighbors userPower automata : Bool) :
    cs.Flips spot block userPower ↔ ¬ (cs.blockat spot = 0 ↔
      (cs.setBlockAndQueueRerender e spot block neighbors userPower automata).blockat spot = 0) := by
  unfold Flips
  rw [blockat_edit]
  by_cases hseen : userPower = true ∨ spot ∉ cs.userdatamap
  · rw [if_pos ⟨rfl, hseen⟩, and_iff_right hseen]
  · rw [if_neg fun h => hseen h.2]
    simp [hseen]

/-- The faces of a chunk that an edit overlooks change when the edit fills or clears the cell and
the cell darkens one of them. -/
theorem geometryDiffers_edit (e : Entropy) (neighbors : Bool) {pos : IVec2} (hover : cs.Overlooks spot block automata pos) :
    GeometryDiffers cs.blockat (cs.setBlockAndQueueRerender e spot block neighbors userPower automata).blockat pos ↔
      cs.Flips spot block userPower ∧ cs.Shades spot pos := by
  have hgeometry : ∀ cell ∈ chunkCells pos, ∀ side : CubeSide, _ := fun cell hcell side =>
    geometry_set_iff spot (fun x hx => blockat_edit_of_ne e cs block neighbors userPower automata hx)
      (hover.ne hcell).1 ((hover.ne hcell).2 side)
  unfold GeometryDiffers Shades
  rw [flips_iff e cs spot block neighbors userPower automata]
  constructor
  · rintro ⟨cell, hcell, side, hne⟩
    rw [ne_eq, hgeometry cell hcell side, Classical.not_imp, Classical.not_imp] at hne
    obtain ⟨hdrawn, hdarkens, hflip⟩ := hne
    exact ⟨hflip, cell, hcell, side, hdrawn, hdarkens⟩
  · rintro ⟨hflip, cell, hcell, side, hdrawn, hdarkens⟩
    refine ⟨cell, hcell, side, ?_⟩
    rw [ne_eq, hgeometry cell hcell side]
    intro h
    exact hflip (h hdrawn hdarkens)

/-- **A chunk that is rightly overlooked** has the same cubes drawn after the edit as before. -/
theorem cubes_edit (e : Entropy) (neighbors : Bool) {pos : IVec2} (hover : cs.Overlooks spot block automata pos)
    (h : ¬ (cs.Flips spot block userPower ∧ cs.Shades spot pos)) (lightmap : LightMap) :
    cubes cs.blockat lightmap pos =
      cubes (cs.setBlockAndQueueRerender e spot block neighbors userPower automata).blockat lightmap pos := by
  apply cubes_congr
  · intro cell hcell
    exact blockat_edit_of_ne e cs block neighbors userPower automata (hover.ne hcell).1
  · intro cell hcell side
    exact blockat_edit_of_ne e cs block neighbors userPower automata ((hover.ne hcell).2 side)
  · rw [geometryDiffers_edit e neighbors hover]
    exact h

/-- **Meshes are fresh after an edit** that is not about light and asks for the neighbors, so that
every loaded chunk whose faces it changes waits to be rebuilt, exactly when it neither fills nor
clears the cell, or the cell darkens no face that is drawn of a chunk that the edit overlooks and
that does not wait already. Coordinates are below `2 ^ 24`, where the source finds the same chunks. -/
theorem edit_fresh_iff (e : Entropy) (cs : ChunkSystem) (hb : cs.registry.Bijective) (spot : IVec3) (block : UInt32)
    (userPower automata : Bool) (hnew : Blocks.isLight block = false) (hold : Blocks.isLight (cs.blockat spot) = false) :
    (∀ pos ∈ cs.takencare,
        GeometryDiffers cs.blockat (cs.setBlockAndQueueRerender e spot block true userPower automata).blockat pos →
        (cs.setBlockAndQueueRerender e spot block true userPower automata).Queued pos) ↔
      (cs.Flips spot block userPower → ∀ pos ∈ cs.takencare, cs.Overlooks spot block automata pos → ¬ cs.Queued pos →
        ¬ cs.Shades spot pos) := by
  have hlight : cs.editsLight spot block = false := by rw [editsLight, hnew, hold, Bool.or_self]
  have hasks := asks_edit e hb hlight userPower automata
  constructor
  · intro hfresh hflip pos hpos hover hwaits hshades
    have hqueued := hfresh pos hpos ((geometryDiffers_edit e true hover).mpr ⟨hflip, hshades⟩)
    rw [hasks.queued pos hpos] at hqueued
    rcases hqueued with hqueued | hnot
    · exact hwaits hqueued
    · exact hnot hover
  · intro hcond pos hpos hgeometry
    rw [hasks.queued pos hpos]
    by_contra hnot
    rw [not_or, not_not] at hnot
    obtain ⟨hwaits, hover⟩ := hnot
    obtain ⟨hflip, hshades⟩ := (geometryDiffers_edit e true hover).mp hgeometry
    exact hcond hflip pos hpos hover hwaits hshades

/-! ### A block across an edge -/

/-- The vertex data of a slot is what a rebuild would make of the blocks and the light. -/
def MeshesFresh (env : Externals) (cs : ChunkSystem) : Prop :=
  ∀ geo ∈ cs.geobank, ∃ rng, geo.mesh = env.mesh cs.blockat cs.lightmap geo.pos rng

/-- Every slot is given new vertex data. -/
def redraw (env : Externals) (cs : ChunkSystem) : ChunkSystem :=
  { cs with geobank := cs.geobank.map fun geo => { geo with mesh := env.mesh cs.blockat cs.lightmap geo.pos fun _ => 0 } }

theorem meshesFresh_redraw (env : Externals) (cs : ChunkSystem) : MeshesFresh env (cs.redraw env) := by
  intro geo hgeo
  obtain ⟨old, -, rfl⟩ := List.mem_map.mp hgeo
  exact ⟨fun _ => 0, rfl⟩

theorem registry_redraw (env : Externals) (cs : ChunkSystem) : (cs.redraw env).registry = cs.registry := by
  have hpos : (cs.redraw env).geobank.map ChunkGeo.pos = cs.geobank.map ChunkGeo.pos := by
    rw [redraw, List.map_map]
    rfl
  rw [registry, hpos]
  rfl

theorem blockat_redraw (env : Externals) (cs : ChunkSystem) (x : IVec3) : (cs.redraw env).blockat x = cs.blockat x := rfl

/-- Worlds of air, in which only cubes are drawn. -/
def onlyCubes : Externals :=
  { Externals.plain with
    mesh := fun blockat lightmap pos _ =>
      let c := cubes blockat lightmap pos
      ⟨c.data32, c.data8, c.data8rgb, c.tdata32, c.tdata8, c.tdata8rgb, [], [], [], []⟩ }

/-- Two loaded chunks that touch at an edge, with a block at the edge in the second. -/
def edgeWorld : ChunkSystem := ((twoChunks .plain ⟨1, 1⟩).setBlock ⟨15, 0, 15⟩ 5 true).redraw onlyCubes

theorem bijective_edgeWorld : edgeWorld.registry.Bijective := by
  rw [edgeWorld, registry_redraw]
  exact bijective_twoChunks .plain (by decide)

theorem blockat_edgeWorld (x : IVec3) : edgeWorld.blockat x = if x = ⟨15, 0, 15⟩ then 5 else 0 := by
  rw [edgeWorld, blockat_redraw, blockat_setBlock_user]
  rfl

/-- In a world in which all meshes are fresh, a block is set diagonally across the edge from a
cube: the cube's top is darker at a corner, and its chunk does not wait to be rebuilt. -/
theorem edgeWorld_stale : edgeWorld.registry.Bijective ∧ edgeWorld.MeshesFresh onlyCubes ∧
    (∀ pos, ¬ edgeWorld.Queued pos) ∧ Blocks.isLight 5 = false ∧ Blocks.isLight (edgeWorld.blockat ⟨14, 1, 14⟩) = false ∧
    ∃ pos ∈ edgeWorld.takencare,
      GeometryDiffers edgeWorld.blockat
        (edgeWorld.setBlockAndQueueRerender .plain ⟨14, 1, 14⟩ 5 true true false).blockat pos ∧
      ¬ (edgeWorld.setBlockAndQueueRerender .plain ⟨14, 1, 14⟩ 5 true true false).Queued pos := by
  have hair : edgeWorld.blockat ⟨14, 1, 14⟩ = 0 := by rw [blockat_edgeWorld, if_neg (by decide)]
  have hcube : edgeWorld.blockat ⟨15, 0, 15⟩ = 5 := by rw [blockat_edgeWorld, if_pos rfl]
  have habove : edgeWorld.blockat ⟨15, 1, 15⟩ = 0 := by rw [blockat_edgeWorld, if_neg (by decide)]
  have hwaits : ∀ pos, ¬ edgeWorld.Queued pos := by
    rintro pos ⟨cf, -, hmem⟩
    cases hmem
  have hloaded : (⟨1, 1⟩ : IVec2) ∈ edgeWorld.takencare := Finmap.mem_insert.mpr (.inl rfl)
  refine ⟨bijective_edgeWorld, meshesFresh_redraw _ _, hwaits, by decide, by rw [hair]; decide, ⟨1, 1⟩, hloaded, ?_, ?_⟩
  · refine ⟨⟨15, 0, 15⟩, mem_chunkCells.mpr (by decide), .TOP, ?_⟩
    have hblock := blockat_edit .plain edgeWorld ⟨14, 1, 14⟩ 5 true true false
    rw [ne_eq, geometry_set_iff ⟨14, 1, 14⟩ _ (by decide) (by decide)]
    · have hdrawn : faceDrawn edgeWorld.blockat ⟨15, 0, 15⟩ .TOP = true := by
        rw [faceDrawn, hcube, show (⟨15, 0, 15⟩ + CubeSide.TOP.offset : IVec3) = ⟨15, 1, 15⟩ from rfl, habove]
        decide
      have hdarkens : Darkens ⟨14, 1, 14⟩ ⟨15, 0, 15⟩ .TOP := ⟨0, by decide, by decide⟩
      intro h
      have hflip := h hdrawn hdarkens
      rw [hair, hblock, if_pos (by decide)] at hflip
      exact absurd hflip (by decide)
    · intro x hx
      exact blockat_edit_of_ne .plain edgeWorld 5 true true false hx
  · have hlight : edgeWorld.editsLight ⟨14, 1, 14⟩ 5 = false := by
      rw [editsLight, hair]
      decide
    rw [(asks_edit .plain bijective_edgeWorld hlight true false).queued _ hloaded, not_or, not_not]
    refine ⟨hwaits _, ?_, .inr (.inr ?_)⟩
    · intro side
      cases side <;> decide
    · intro side r hr
      cases hr

/-- A block in place of another fills and clears nothing: all that changes waits. -/
theorem edgeWorld_replace : ¬ edgeWorld.Flips ⟨15, 0, 15⟩ 8 true ∧
    ∀ pos ∈ edgeWorld.takencare,
      GeometryDiffers edgeWorld.blockat
        (edgeWorld.setBlockAndQueueRerender .plain ⟨15, 0, 15⟩ 8 true true false).blockat pos →
      (edgeWorld.setBlockAndQueueRerender .plain ⟨15, 0, 15⟩ 8 true true false).Queued pos := by
  have hcube : edgeWorld.blockat ⟨15, 0, 15⟩ = 5 := by rw [blockat_edgeWorld, if_pos rfl]
  have hflips : ¬ edgeWorld.Flips ⟨15, 0, 15⟩ 8 true := by
    rintro ⟨-, hflip⟩
    rw [hcube] at hflip
    exact absurd hflip (by decide)
  refine ⟨hflips, ?_⟩
  apply (edit_fresh_iff .plain edgeWorld bijective_edgeWorld ⟨15, 0, 15⟩ 8 true false (by decide)
    (by rw [hcube]; decide)).mpr
  intro hflip
  exact absurd hflip hflips

end ChunkSystem

end Distgard
