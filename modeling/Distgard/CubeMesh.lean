import Distgard.Cube
import Distgard.Light.LightMap

/-!
# The cubes of a chunk

What a rebuild draws of the cubes of a chunk: column by column from the top down, cell by cell,
face by face, six vertices to a face. A vertex goes into three streams at once, for its position,
its texture and its light; opaque cubes have three streams, the others three of their own.

## The model

`cubes` is the loop of `rebuild_index` as far as it writes to these six streams. Blocks that are
drawn as models are passed over, and so are the weather panes. The source remembers which blocks
it has looked up; the world is the same throughout a rebuild. The sum of the light in a cell is
taken in 16 bits, as in a release build.

## What is proved

* `cubes_watertight` — each stream is what one list of vertices is packed into; opaque cubes have
  six vertices for every face that can be seen, and none for the others.
-/

namespace Distgard

open Lib

/-- The light in a cell, as it is drawn. -/
def LightMap.sum (lightmap : LightMap) (spot : IVec3) : LightColor where
  x := min (((lightmap.rays spot).map fun ray => ray.value.x).sum % 2 ^ 16) 15
  y := min (((lightmap.rays spot).map fun ray => ray.value.y).sum % 2 ^ 16) 15
  z := min (((lightmap.rays spot).map fun ray => ray.value.z).sum % 2 ^ 16) 15

/-- The sum is at most fifteen, whatever is summed. -/
theorem LightMap.sum_le (lightmap : LightMap) (spot : IVec3) :
    (lightmap.sum spot).x ≤ 15 ∧ (lightmap.sum spot).y ≤ 15 ∧ (lightmap.sum spot).z ≤ 15 :=
  ⟨Nat.min_le_right _ _, Nat.min_le_right _ _, Nat.min_le_right _ _⟩

namespace Blocks

/-- The blocks that are drawn as models: doors, ladders, conveyors, torches, chests, tall grass
and tables. -/
def models : List UInt32 := [19, 20, 45, 49, 21, 23, 31]

/-- The blocks that are drawn as cubes one can look through. -/
def transparentCube (block : UInt32) : Bool :=
  block != 0 && !models.contains block && (isTransparent block || isSemiTransparent block)

/-- The blocks that are drawn as opaque cubes. -/
def opaqueCube (block : UInt32) : Bool :=
  block != 0 && !models.contains block && !(isTransparent block || isSemiTransparent block)

/-- The face of an opaque cube towards such a block can be seen. -/
def showsOpaque (neighBlock : UInt32) : Bool :=
  neighBlock == 0 || (isTransparent neighBlock || isSemiTransparent neighBlock)

/-- The face of another cube towards such a block can be seen. -/
def showsTransparent (block neighBlock : UInt32) : Bool :=
  neighBlock == 0 || isSemiTransparent neighBlock || (block == 2 && neighBlock != 2 && isTransparent neighBlock)

end Blocks

/-- What has been drawn of a chunk so far. -/
structure Cubes where
  /-- Opaque cubes: positions. -/
  data32 : List UInt32
  /-- Opaque cubes: textures. -/
  data8 : List UInt8
  /-- Opaque cubes: light. -/
  data8rgb : List UInt16
  /-- Other cubes: positions. -/
  tdata32 : List UInt32
  /-- Other cubes: textures. -/
  tdata8 : List UInt8
  /-- Other cubes: light. -/
  tdata8rgb : List UInt16
  /-- The height in each column below which cells lie in the shade. -/
  tops : HashMap IVec2 ℤ

namespace Cubes

/-- Nothing has been drawn. -/
def empty : Cubes := ⟨[], [], [], [], [], [], ∅⟩

variable (blockat : IVec3 → UInt32) (lightmap : LightMap) (pos : IVec2)

/-- How much darker a corner is with so many blocks around it. -/
def AMB_CHANGES : List ℤ := [0, 3, 6, 10]

/-- How many of the cells around a corner hold a block. -/
def ambChange (spot : IVec3) (side : CubeSide) (ind : ℕ) : ℕ :=
  ((Cube.getAmbOcculSpots side ind).map fun vec => blockat (vec + spot)).countP fun result => result != 0

/-- The brightness of a corner. -/
def clampedLight (v : Corner) (ambChange : ℕ) (hitBlock : Bool) : UInt8 :=
  let baseLight : ℤ := v.light.toNat - AMB_CHANGES.getD ambChange 0
  let adjustedLight := if hitBlock then baseLight - 3 else baseLight
  UInt8.ofNat (max 0 (min 15 adjustedLight)).toNat

/-- A corner of a face, as it is packed. -/
def packedCorner (spot : IVec3) (block : UInt32) (side : CubeSide) (v : Corner) (ind : ℕ) (clampedLight : UInt8) :
    UInt32 × UInt8 :=
  let isgrass := if block = 3 then 1 else 0
  let texcoord := Blocks.getTexCoords block side
  PackedVertex.pack (UInt8.ofNat (spot.x - pos.x * CH_W).toNat + v.x) (UInt8.ofNat spot.y.toNat + v.y)
    (UInt8.ofNat (spot.z - pos.y * CH_W).toNat + v.z) (UInt8.ofNat ind) clampedLight isgrass texcoord.1 texcoord.2

/-- The light in a cell, as it is packed. -/
def packedColor (spot : IVec3) : UInt16 :=
  let blocklighthere := lightmap.sum spot
  PackedVertex.packRgb (UInt16.ofNat blocklighthere.x) (UInt16.ofNat blocklighthere.y) (UInt16.ofNat blocklighthere.z)

/-- The column of a cell, within the chunk. -/
def columnOf (spot : IVec3) : IVec2 := ⟨spot.x - pos.x * CH_W, spot.z - pos.y * CH_W⟩

/-- The cell lies in the shade. -/
def hitBlock (tops : HashMap IVec2 ℤ) (spot : IVec3) : Bool :=
  match tops.lookup (columnOf pos spot) with
  | some t => spot.y < t
  | none => false

/-- Draw a side of a cube that is not opaque. The surface of water is drawn from below, too. -/
def transparentSide (spot : IVec3) (block : UInt32) (c : Cubes) (side : CubeSide) : Cubes :=
  let neighspot := spot + side.offset
  let neighBlock := blockat neighspot &&& Blocks.blockIdBits
  let hit := hitBlock pos c.tops neighspot
  let packedcolor := packedColor lightmap neighspot
  if Blocks.showsTransparent block neighBlock then
    let packed := (Cube.getSide side).zipIdx.map fun v =>
      packedCorner pos spot block side v.1 v.2 (clampedLight v.1 (ambChange blockat spot side v.2) hit)
    let c :=
      if block = 2 ∧ side = .TOP then
        let below := (Cube.getSide side).zipIdx.reverse.map fun v =>
          packedCorner pos spot block side v.1 v.2 (clampedLight v.1 0 hit)
        { c with
          tdata32 := c.tdata32 ++ below.map Prod.fst
          tdata8 := c.tdata8 ++ below.map Prod.snd
          tdata8rgb := c.tdata8rgb ++ below.map fun _ => packedcolor }
      else c
    { c with
      tdata32 := c.tdata32 ++ packed.map Prod.fst
      tdata8 := c.tdata8 ++ packed.map Prod.snd
      tdata8rgb := c.tdata8rgb ++ packed.map fun _ => packedcolor }
  else { c with tops := c.tops.insert (columnOf pos neighspot) neighspot.y }

/-- Draw a side of an opaque cube. -/
def opaqueSide (spot : IVec3) (block : UInt32) (c : Cubes) (side : CubeSide) : Cubes :=
  let neighspot := spot + side.offset
  let neighBlock := blockat neighspot &&& Blocks.blockIdBits
  let hit := hitBlock pos c.tops neighspot
  let packedcolor := packedColor lightmap neighspot
  if Blocks.showsOpaque neighBlock then
    let packed := (Cube.getSide side).zipIdx.map fun v =>
      packedCorner pos spot block side v.1 v.2 (clampedLight v.1 (ambChange blockat spot side v.2) hit)
    let c := { c with
      data32 := c.data32 ++ packed.map Prod.fst
      data8 := c.data8 ++ packed.map Prod.snd
      data8rgb := c.data8rgb ++ packed.map fun _ => packedcolor }
    if Blocks.isSemiTransparent neighBlock then { c with tops := c.tops.insert (columnOf pos neighspot) neighspot.y }
    else c
  else { c with tops := c.tops.insert (columnOf pos neighspot) neighspot.y }

/-- Draw the cube in a cell, if there is one. -/
def cell (c : Cubes) (spot : IVec3) : Cubes :=
  let block := blockat spot &&& Blocks.blockIdBits
  if block ≠ 0 then
    if Blocks.models.contains block then c
    else if Blocks.isTransparent block || Blocks.isSemiTransparent block then
      CubeSide.all.foldl (transparentSide blockat lightmap pos spot block) c
    else CubeSide.all.foldl (opaqueSide blockat lightmap pos spot block) c
  else c

/-- Draw the cubes of a chunk. -/
def cubes : Cubes := (columnCells pos (range0 CH_H).reverse).foldl (cell blockat lightmap pos) empty

/-! ### The vertices -/

/-- A vertex: a corner of a face of a cube, and how bright it is. -/
structure Vertex where
  /-- The cell of the cube. -/
  cell : IVec3
  /-- The face. -/
  side : CubeSide
  /-- The number of the corner. -/
  corner : ℕ
  /-- The brightness. -/
  light : UInt8

/-- Which corner of which face a vertex is. -/
def Vertex.place (v : Vertex) : IVec3 × CubeSide × ℕ := (v.cell, v.side, v.corner)

/-- Where a vertex is, and its texture, as it is packed. -/
def Vertex.packed (v : Vertex) : UInt32 × UInt8 :=
  packedCorner pos v.cell (blockat v.cell &&& Blocks.blockIdBits) v.side
    ((Cube.getSide v.side).getD v.corner ⟨0, 0, 0, 0⟩) v.corner v.light

/-- The light of a vertex, as it is packed: that of the cell in front of the face. -/
def Vertex.color (v : Vertex) : UInt16 := packedColor lightmap (v.cell + v.side.offset)

/-- Vertices have been drawn, in all three streams of their kind. -/
structure Draws (c c' : Cubes) (solid transparent : List Vertex) : Prop where
  /-- Positions of opaque cubes. -/
  data32 : c'.data32 = c.data32 ++ solid.map fun v => (v.packed blockat pos).1
  /-- Their textures. -/
  data8 : c'.data8 = c.data8 ++ solid.map fun v => (v.packed blockat pos).2
  /-- Their light. -/
  data8rgb : c'.data8rgb = c.data8rgb ++ solid.map (Vertex.color lightmap)
  /-- Positions of the others. -/
  tdata32 : c'.tdata32 = c.tdata32 ++ transparent.map fun v => (v.packed blockat pos).1
  /-- Their textures. -/
  tdata8 : c'.tdata8 = c.tdata8 ++ transparent.map fun v => (v.packed blockat pos).2
  /-- Their light. -/
  tdata8rgb : c'.tdata8rgb = c.tdata8rgb ++ transparent.map (Vertex.color lightmap)

variable {blockat lightmap pos}

theorem Draws.refl {c c' : Cubes} (h : c' = { c with tops := c'.tops }) : Draws blockat lightmap pos c c' [] [] := by
  rw [h]
  constructor <;> exact (List.append_nil _).symm

theorem Draws.trans {c c' c'' : Cubes} {solid solid' transparent transparent' : List Vertex}
    (h : Draws blockat lightmap pos c c' solid transparent) (h' : Draws blockat lightmap pos c' c'' solid' transparent') :
    Draws blockat lightmap pos c c'' (solid ++ solid') (transparent ++ transparent') where
  data32 := by rw [h'.data32, h.data32, List.append_assoc, List.map_append]
  data8 := by rw [h'.data8, h.data8, List.append_assoc, List.map_append]
  data8rgb := by rw [h'.data8rgb, h.data8rgb, List.append_assoc, List.map_append]
  tdata32 := by rw [h'.tdata32, h.tdata32, List.append_assoc, List.map_append]
  tdata8 := by rw [h'.tdata8, h.tdata8, List.append_assoc, List.map_append]
  tdata8rgb := by rw [h'.tdata8rgb, h.tdata8rgb, List.append_assoc, List.map_append]

/-- The vertex is as bright as its corner with some blocks around it, in the shade or not. From
below the surface of water is drawn as if there were none. -/
def Vertex.Lit (blockat : IVec3 → UInt32) (v : Vertex) : Prop :=
  ∃ blocks hit, v.light = clampedLight ((Cube.getSide v.side).getD v.corner ⟨0, 0, 0, 0⟩) blocks hit ∧
    (blocks = ambChange blockat v.cell v.side v.corner ∨ blocks = 0)

/-- Vertices have been drawn at these places, those of opaque cubes first. -/
def DrawsAt (blockat : IVec3 → UInt32) (lightmap : LightMap) (pos : IVec2) (c c' : Cubes)
    (places tplaces : List (IVec3 × CubeSide × ℕ)) : Prop :=
  ∃ solid transparent, Draws blockat lightmap pos c c' solid transparent ∧ solid.map Vertex.place = places ∧
    transparent.map Vertex.place = tplaces ∧ ∀ v ∈ solid ++ transparent, v.Lit blockat

theorem DrawsAt.refl {c c' : Cubes} (h : c' = { c with tops := c'.tops }) : DrawsAt blockat lightmap pos c c' [] [] :=
  ⟨[], [], .refl h, rfl, rfl, List.forall_mem_nil _⟩

theorem DrawsAt.trans {c c' c'' : Cubes} {places places' tplaces tplaces' : List (IVec3 × CubeSide × ℕ)}
    (h : DrawsAt blockat lightmap pos c c' places tplaces) (h' : DrawsAt blockat lightmap pos c' c'' places' tplaces') :
    DrawsAt blockat lightmap pos c c'' (places ++ places') (tplaces ++ tplaces') := by
  obtain ⟨solid, transparent, hdraws, rfl, rfl, hlit⟩ := h
  obtain ⟨solid', transparent', hdraws', rfl, rfl, hlit'⟩ := h'
  refine ⟨_, _, hdraws.trans hdraws', List.map_append, List.map_append, ?_⟩
  intro v hv
  simp only [List.mem_append] at hv hlit hlit'
  rcases hv with (hv | hv) | (hv | hv)
  · exact hlit v (.inl hv)
  · exact hlit' v (.inl hv)
  · exact hlit v (.inr hv)
  · exact hlit' v (.inr hv)

/-- The vertices of a face, with the brightness of each corner. -/
def faceVertices (spot : IVec3) (side : CubeSide) (light : Corner → ℕ → UInt8) : List Vertex :=
  (Cube.getSide side).zipIdx.map fun v => ⟨spot, side, v.2, light v.1 v.2⟩

theorem place_faceVertices (spot : IVec3) (side : CubeSide) (light : Corner → ℕ → UInt8) :
    (faceVertices spot side light).map Vertex.place = (List.range 6).map fun ind => (spot, side, ind) := by
  cases side <;> rfl

/-- The vertices of a face are lit, where each corner is. -/
theorem lit_faceVertices (spot : IVec3) (side : CubeSide) {light : Corner → ℕ → UInt8}
    (h : ∀ v ind, ∃ blocks hit, light v ind = clampedLight v blocks hit ∧
      (blocks = ambChange blockat spot side ind ∨ blocks = 0)) (v : Vertex) (hv : v ∈ faceVertices spot side light) :
    v.Lit blockat := by
  obtain ⟨⟨corner, ind⟩, hmem, rfl⟩ := List.mem_map.mp hv
  have hcorner : (Cube.getSide side)[ind]? = some corner := List.mk_mem_zipIdx_iff_getElem?.mp hmem
  rw [Vertex.Lit, List.getD_eq_getElem?_getD, hcorner]
  exact h corner ind

/-- The corners of a face are packed as its vertices are. -/
theorem packed_faceVertices (blockat : IVec3 → UInt32) (pos : IVec2) (spot : IVec3) (side : CubeSide)
    (light : Corner → ℕ → UInt8) :
    ((Cube.getSide side).zipIdx.map fun v =>
        packedCorner pos spot (blockat spot &&& Blocks.blockIdBits) side v.1 v.2 (light v.1 v.2)) =
      (faceVertices spot side light).map (Vertex.packed blockat pos) := by
  cases side <;> rfl

theorem packed_faceVertices_reverse (blockat : IVec3 → UInt32) (pos : IVec2) (spot : IVec3) (side : CubeSide)
    (light : Corner → ℕ → UInt8) :
    ((Cube.getSide side).zipIdx.reverse.map fun v =>
        packedCorner pos spot (blockat spot &&& Blocks.blockIdBits) side v.1 v.2 (light v.1 v.2)) =
      (faceVertices spot side light).reverse.map (Vertex.packed blockat pos) := by
  rw [List.map_reverse, packed_faceVertices, List.map_reverse]

/-- All vertices of a face have the light in front of it. -/
theorem color_faceVertices (lightmap : LightMap) (spot : IVec3) (side : CubeSide) (light : Corner → ℕ → UInt8) (v : Vertex)
    (h : v ∈ faceVertices spot side light) : v.color lightmap = packedColor lightmap (spot + side.offset) := by
  obtain ⟨_, _, rfl⟩ := List.mem_map.mp h
  rfl

/-- The faces of an opaque cube that can be seen, corner by corner. -/
def facePlaces (blockat : IVec3 → UInt32) (spot : IVec3) (side : CubeSide) : List (IVec3 × CubeSide × ℕ) :=
  if Blocks.showsOpaque (blockat (spot + side.offset) &&& Blocks.blockIdBits) then
    (List.range 6).map fun ind => (spot, side, ind)
  else []

/-- The faces of another cube that can be seen, corner by corner. The surface of water is there
twice, the one seen from below backwards. -/
def transparentPlaces (blockat : IVec3 → UInt32) (spot : IVec3) (side : CubeSide) : List (IVec3 × CubeSide × ℕ) :=
  let block := blockat spot &&& Blocks.blockIdBits
  if Blocks.showsTransparent block (blockat (spot + side.offset) &&& Blocks.blockIdBits) then
    (if block = 2 ∧ side = .TOP then ((List.range 6).map fun ind => (spot, side, ind)).reverse else []) ++
      (List.range 6).map fun ind => (spot, side, ind)
  else []

/-- Corners that are packed as vertices are, with the light of the vertices. -/
theorem map_color {packed : List (UInt32 × UInt8)} {vertices : List Vertex} {color : UInt16}
    (hpacked : packed = vertices.map (Vertex.packed blockat pos)) (hcolor : ∀ v ∈ vertices, v.color lightmap = color) :
    (packed.map fun _ => color) = vertices.map (Vertex.color lightmap) := by
  rw [hpacked, List.map_map]
  apply List.map_congr_left
  intro v hv
  exact (hcolor v hv).symm

theorem draws_solid (c : Cubes) (tops : HashMap IVec2 ℤ) {packed : List (UInt32 × UInt8)} {vertices : List Vertex}
    {color : UInt16} (hpacked : packed = vertices.map (Vertex.packed blockat pos))
    (hcolor : ∀ v ∈ vertices, v.color lightmap = color) :
    Draws blockat lightmap pos c { c with
      data32 := c.data32 ++ packed.map Prod.fst
      data8 := c.data8 ++ packed.map Prod.snd
      data8rgb := c.data8rgb ++ packed.map fun _ => color
      tops := tops } vertices [] where
  data32 := by
    show c.data32 ++ _ = _
    rw [hpacked, List.map_map]
    rfl
  data8 := by
    show c.data8 ++ _ = _
    rw [hpacked, List.map_map]
    rfl
  data8rgb := by rw [map_color hpacked hcolor]
  tdata32 := (List.append_nil _).symm
  tdata8 := (List.append_nil _).symm
  tdata8rgb := (List.append_nil _).symm

theorem draws_transparent (c : Cubes) {packed : List (UInt32 × UInt8)} {vertices : List Vertex}
    {color : UInt16} (hpacked : packed = vertices.map (Vertex.packed blockat pos))
    (hcolor : ∀ v ∈ vertices, v.color lightmap = color) :
    Draws blockat lightmap pos c { c with
      tdata32 := c.tdata32 ++ packed.map Prod.fst
      tdata8 := c.tdata8 ++ packed.map Prod.snd
      tdata8rgb := c.tdata8rgb ++ packed.map fun _ => color } [] vertices where
  data32 := (List.append_nil _).symm
  data8 := (List.append_nil _).symm
  data8rgb := (List.append_nil _).symm
  tdata32 := by
    show c.tdata32 ++ _ = _
    rw [hpacked, List.map_map]
    rfl
  tdata8 := by
    show c.tdata8 ++ _ = _
    rw [hpacked, List.map_map]
    rfl
  tdata8rgb := by rw [map_color hpacked hcolor]

/-- What is drawn of a side of an opaque cube. -/
theorem draws_opaqueSide (blockat : IVec3 → UInt32) (lightmap : LightMap) (pos : IVec2) (spot : IVec3) (c : Cubes)
    (side : CubeSide) :
    DrawsAt blockat lightmap pos c (opaqueSide blockat lightmap pos spot (blockat spot &&& Blocks.blockIdBits) c side)
      (facePlaces blockat spot side) [] := by
  rw [facePlaces, opaqueSide]
  simp only
  by_cases hshows : Blocks.showsOpaque (blockat (spot + side.offset) &&& Blocks.blockIdBits) = true
  · let light (v : Corner) (ind : ℕ) : UInt8 :=
      clampedLight v (ambChange blockat spot side ind) (hitBlock pos c.tops (spot + side.offset))
    have hlit : ∀ v ∈ faceVertices spot side light ++ [], v.Lit blockat := by
      rw [List.append_nil]
      exact lit_faceVertices spot side fun v ind => ⟨_, _, rfl, .inl rfl⟩
    rw [if_pos hshows, if_pos hshows]
    refine ⟨faceVertices spot side light, [], ?_, place_faceVertices spot side light, rfl, hlit⟩
    have hdraws := fun tops => draws_solid c tops
      (packed_faceVertices blockat pos spot side light) (color_faceVertices lightmap spot side light)
    split
    · exact hdraws _
    · exact hdraws c.tops
  · rw [if_neg hshows, if_neg hshows]
    exact .refl rfl

/-- What is drawn of a side of another cube. -/
theorem draws_transparentSide (blockat : IVec3 → UInt32) (lightmap : LightMap) (pos : IVec2) (spot : IVec3) (c : Cubes)
    (side : CubeSide) :
    DrawsAt blockat lightmap pos c
      (transparentSide blockat lightmap pos spot (blockat spot &&& Blocks.blockIdBits) c side) []
      (transparentPlaces blockat spot side) := by
  rw [transparentPlaces, transparentSide]
  simp only
  split
  · let light (v : Corner) (ind : ℕ) : UInt8 :=
      clampedLight v (ambChange blockat spot side ind) (hitBlock pos c.tops (spot + side.offset))
    let below (v : Corner) (_ : ℕ) : UInt8 := clampedLight v 0 (hitBlock pos c.tops (spot + side.offset))
    have hdraws := fun c => draws_transparent c
      (packed_faceVertices blockat pos spot side light) (color_faceVertices lightmap spot side light)
    have hface : ∀ c, DrawsAt blockat lightmap pos c _ [] _ := fun c =>
      ⟨[], _, hdraws c, rfl, place_faceVertices spot side light,
        lit_faceVertices spot side fun v ind => ⟨_, _, rfl, .inl rfl⟩⟩
    split
    · have hbelow := draws_transparent c
        (packed_faceVertices_reverse blockat pos spot side below)
        (fun v hv => color_faceVertices lightmap spot side below v (List.mem_reverse.mp hv))
      have hsurface : DrawsAt blockat lightmap pos c _ [] _ :=
        ⟨[], _, hbelow, rfl, by rw [List.map_reverse, place_faceVertices],
          fun v hv => lit_faceVertices spot side (fun v ind => ⟨_, _, rfl, .inr rfl⟩) v (List.mem_reverse.mp hv)⟩
      exact hsurface.trans (hface _)
    · exact hface c
  · exact .refl rfl

/-- Where each round of a loop draws vertices at the places of its element, the loop draws
vertices at the places of all elements. -/
theorem draws_foldl {α : Type*} {step : Cubes → α → Cubes} (places tplaces : α → List (IVec3 × CubeSide × ℕ)) (l : List α)
    (hstep : ∀ c a, DrawsAt blockat lightmap pos c (step c a) (places a) (tplaces a)) (c : Cubes) :
    DrawsAt blockat lightmap pos c (l.foldl step c) (l.flatMap places) (l.flatMap tplaces) := by
  induction l generalizing c with
  | nil => exact .refl rfl
  | cons a l ih => exact (hstep c a).trans (ih (step c a))

/-- The faces of the block in a cell that are drawn as those of an opaque cube. -/
def cellPlaces (blockat : IVec3 → UInt32) (spot : IVec3) : List (IVec3 × CubeSide × ℕ) :=
  if Blocks.opaqueCube (blockat spot &&& Blocks.blockIdBits) then CubeSide.all.flatMap (facePlaces blockat spot) else []

/-- The faces of the block in a cell that are drawn as those of another cube. -/
def transparentCellPlaces (blockat : IVec3 → UInt32) (spot : IVec3) : List (IVec3 × CubeSide × ℕ) :=
  if Blocks.transparentCube (blockat spot &&& Blocks.blockIdBits) then
    CubeSide.all.flatMap (transparentPlaces blockat spot)
  else []

/-- What is drawn of a cell. -/
theorem draws_cell (blockat : IVec3 → UInt32) (lightmap : LightMap) (pos : IVec2) (c : Cubes) (spot : IVec3) :
    DrawsAt blockat lightmap pos c (cell blockat lightmap pos c spot) (cellPlaces blockat spot)
      (transparentCellPlaces blockat spot) := by
  rw [cellPlaces, transparentCellPlaces, cell, Blocks.opaqueCube, Blocks.transparentCube]
  generalize hblock : blockat spot &&& Blocks.blockIdBits = block
  by_cases hair : block = 0
  · rw [if_neg (not_not_intro hair), hair]
    exact .refl rfl
  have hne : (block != 0) = true := bne_iff_ne.mpr hair
  rw [if_pos hair, hne]
  cases hmodel : Blocks.models.contains block with
  | true => exact .refl rfl
  | false =>
    cases hclear : Blocks.isTransparent block || Blocks.isSemiTransparent block with
    | true =>
      have hsides := draws_foldl (fun _ => []) _ CubeSide.all (draws_transparentSide blockat lightmap pos spot) c
      rw [hblock] at hsides
      exact hsides
    | false =>
      have hsides := draws_foldl _ (fun _ => []) CubeSide.all (draws_opaqueSide blockat lightmap pos spot) c
      rw [hblock] at hsides
      exact hsides

/-- Where one element of a list brings something, and once, all bring what it does. -/
theorem flatMap_eq_of_unique {α β : Type*} {l : List α} (hnodup : l.Nodup) {a : α} (ha : a ∈ l) {f : α → List β}
    (h : ∀ b ∈ l, b ≠ a → f b = []) : l.flatMap f = f a := by
  induction l with
  | nil => cases ha
  | cons b l ih =>
    obtain ⟨hb, hl⟩ := List.nodup_cons.mp hnodup
    rw [List.flatMap_cons]
    rcases List.mem_cons.mp ha with rfl | ha
    · have hrest : l.flatMap f = [] := by
        apply List.flatMap_eq_nil_iff.mpr
        intro b hbl
        apply h b (List.mem_cons_of_mem _ hbl)
        rintro rfl
        exact hb hbl
      rw [hrest, List.append_nil]
    · have hne : b ≠ a := by
        rintro rfl
        exact hb ha
      rw [h b (List.mem_cons_self ..) hne, List.nil_append]
      exact ih hl ha fun c hc => h c (List.mem_cons_of_mem _ hc)

theorem mem_facePlaces {spot : IVec3} {side : CubeSide} {place : IVec3 × CubeSide × ℕ}
    (h : place ∈ facePlaces blockat spot side) : place.1 = spot ∧ place.2.1 = side := by
  rw [facePlaces] at h
  split at h
  · obtain ⟨ind, -, rfl⟩ := List.mem_map.mp h
    exact ⟨rfl, rfl⟩
  · cases h

theorem mem_cellPlaces {spot : IVec3} {place : IVec3 × CubeSide × ℕ} (h : place ∈ cellPlaces blockat spot) :
    place.1 = spot ∧ Blocks.opaqueCube (blockat spot &&& Blocks.blockIdBits) = true := by
  rw [cellPlaces] at h
  split at h
  · next hfull =>
    obtain ⟨side, -, hplace⟩ := List.mem_flatMap.mp h
    exact ⟨(mem_facePlaces hplace).1, hfull⟩
  · cases h

/-- The places of one face among those of a chunk. -/
theorem filter_places {cells : List IVec3} (hnodup : cells.Nodup) {spot : IVec3} (hspot : spot ∈ cells)
    (hfull : Blocks.opaqueCube (blockat spot &&& Blocks.blockIdBits) = true) (side : CubeSide) :
    (cells.flatMap (cellPlaces blockat)).filter (fun place => place.1 = spot ∧ place.2.1 = side) =
      facePlaces blockat spot side := by
  rw [List.filter_flatMap, flatMap_eq_of_unique hnodup hspot]
  · rw [cellPlaces, if_pos hfull, List.filter_flatMap, flatMap_eq_of_unique (by decide) side.mem_all]
    · apply List.filter_eq_self.mpr
      intro place hplace
      exact decide_eq_true (mem_facePlaces hplace)
    · intro side' _ hne
      apply List.filter_eq_nil_iff.mpr
      intro place hplace hboth
      exact hne ((mem_facePlaces hplace).2.symm.trans (of_decide_eq_true hboth).2)
  · intro spot' _ hne
    apply List.filter_eq_nil_iff.mpr
    intro place hplace hboth
    exact hne ((mem_cellPlaces hplace).1.symm.trans (of_decide_eq_true hboth).1)

/-- **The cubes of a chunk**: for every world, the three streams of the opaque cubes are one list of
vertices, packed, and so are the three of the others. Of an opaque cube, each face towards air or
a block one can look through has its six corners in the list, in order; no other face of it and no
other block has any. -/
theorem cubes_watertight (blockat : IVec3 → UInt32) (lightmap : LightMap) (pos : IVec2) :
    ∃ solid transparent : List Vertex,
      let c := cubes blockat lightmap pos
      ((c.data32 = solid.map fun v => (v.packed blockat pos).1) ∧ (c.data8 = solid.map fun v => (v.packed blockat pos).2) ∧
        c.data8rgb = solid.map (Vertex.color lightmap)) ∧
      ((c.tdata32 = transparent.map fun v => (v.packed blockat pos).1) ∧
        (c.tdata8 = transparent.map fun v => (v.packed blockat pos).2) ∧
        c.tdata8rgb = transparent.map (Vertex.color lightmap)) ∧
      (∀ v ∈ solid, v.cell ∈ chunkCells pos ∧ Blocks.opaqueCube (blockat v.cell &&& Blocks.blockIdBits) = true) ∧
      ∀ spot ∈ chunkCells pos, Blocks.opaqueCube (blockat spot &&& Blocks.blockIdBits) = true → ∀ side : CubeSide,
        (solid.filter fun v => v.cell = spot ∧ v.side = side).map Vertex.corner =
          if Blocks.showsOpaque (blockat (spot + side.offset) &&& Blocks.blockIdBits) then List.range 6 else [] := by
  obtain ⟨solid, transparent, hdraws, hplaces, -, -⟩ := draws_foldl (cellPlaces blockat) (transparentCellPlaces blockat)
    (columnCells pos (range0 CH_H).reverse) (draws_cell blockat lightmap pos) empty
  have hcells : ∀ spot, spot ∈ columnCells pos (range0 CH_H).reverse ↔ spot ∈ chunkCells pos := by
    intro spot
    rw [mem_columnCells, chunkCells, mem_columnCells, List.mem_reverse]
  have hnodup := nodup_columnCells pos (List.nodup_reverse.mpr (nodup_range0 CH_H))
  refine ⟨solid, transparent, ⟨hdraws.data32, hdraws.data8, hdraws.data8rgb⟩,
    ⟨hdraws.tdata32, hdraws.tdata8, hdraws.tdata8rgb⟩, ?_, ?_⟩
  · intro v hv
    have hplace : v.place ∈ (columnCells pos (range0 CH_H).reverse).flatMap (cellPlaces blockat) := by
      rw [← hplaces]
      exact List.mem_map_of_mem hv
    obtain ⟨spot, hspot, hplace⟩ := List.mem_flatMap.mp hplace
    obtain ⟨hcell, hfull⟩ := mem_cellPlaces hplace
    have hcell' : v.cell = spot := hcell
    rw [hcell']
    exact ⟨(hcells spot).mp hspot, hfull⟩
  · intro spot hspot hfull side
    have hfilter := filter_places hnodup ((hcells spot).mpr hspot) hfull side
    rw [← hplaces, List.filter_map] at hfilter
    have hcorners : ((solid.filter fun v => v.cell = spot ∧ v.side = side).map Vertex.place).map (fun place => place.2.2) =
        (facePlaces blockat spot side).map fun place => place.2.2 := congrArg _ hfilter
    rw [List.map_map] at hcorners
    have hface : (facePlaces blockat spot side).map (fun place => place.2.2) =
        if Blocks.showsOpaque (blockat (spot + side.offset) &&& Blocks.blockIdBits) then List.range 6 else [] := by
      rw [facePlaces]
      split
      · rfl
      · rfl
    rw [← hface, ← hcorners]
    rfl

end Cubes

end Distgard
