import Distgard.CubeMesh
import Distgard.Lib.Bits
import Mathlib.Algebra.GroupWithZero.Nat

/-!
# What the vertex shader reads

A vertex of a cube goes to the shader as three numbers: a word, a byte and a color of 16 bits.
The program packs fields of four bits (the height has eight) into them, and the shader takes them
apart with shifts and masks of its own.

## The model

* `Fields` are the arguments of `pack` and `pack_rgb`; `Fields.Fits` says that each has no more
  bits than there are for it.
* `Vert.main` is the part of the shader that reads the three attributes, each of which arrives as
  a word of 32 bits.
* `Vertex.fields` are the fields of a vertex of `cubes`.

## What is proved

* `Fields.toNat_word`, `Fields.toNat_byte`, `Fields.toNat_color` — fields that fit add up in the
  numbers they are packed into.
* `Fields.main_packed` — the shader reads the fields that were packed.
* `Cubes.Vertex.InChunk.fits` — what is packed for a vertex fits.
* `Cubes.cubes_unpacked` — all of this for every cube of every world.
-/

namespace Distgard

open Lib

/-- What is packed for a vertex. -/
structure Fields where
  /-- East. -/
  x : UInt8
  /-- Up. -/
  y : UInt8
  /-- South. -/
  z : UInt8
  /-- The number of the corner. -/
  corner : UInt8
  /-- The brightness. -/
  al : UInt8
  /-- Whether it is grass. -/
  bl : UInt8
  /-- The column of the texture. -/
  u : UInt8
  /-- The row of the texture. -/
  v : UInt8
  /-- Red light. -/
  r : UInt16
  /-- Green light. -/
  g : UInt16
  /-- Blue light. -/
  b : UInt16

/-- What the shader reads of a vertex. -/
structure Unpacked where
  /-- Red light. -/
  r : UInt32
  /-- Green light. -/
  g : UInt32
  /-- Blue light. -/
  b : UInt32
  /-- East. -/
  lx : UInt32
  /-- Up. -/
  ly : UInt32
  /-- South. -/
  lz : UInt32
  /-- The number of the corner. -/
  cornerID : UInt32
  /-- The brightness. -/
  ambientBright : UInt32
  /-- Whether it is grass. -/
  isgrass : UInt32
  /-- The column of the texture. -/
  u : UInt32
  /-- The row of the texture. -/
  v : UInt32
  deriving DecidableEq

/-- How the shader takes the attributes of a vertex apart. -/
def Vert.main (u32 eightbit rgb : UInt32) : Unpacked where
  r := (rgb &&& 0xF00) >>> 8
  g := (rgb &&& 0x0F0) >>> 4
  b := rgb &&& 0x00F
  lx := (u32 >>> 28) &&& 0x0000000F
  ly := (u32 >>> 20) &&& 0x000000FF
  lz := (u32 >>> 16) &&& 0x0000000F
  cornerID := (u32 >>> 12) &&& 0x0000000F
  ambientBright := (u32 >>> 8) &&& 0x0000000F
  isgrass := (u32 >>> 4) &&& 0x0000000F
  u := (eightbit >>> 4) &&& 0xF
  v := eightbit &&& 0xF

namespace Fields

/-- The fields have no more bits than there are for them: four, and eight for the height. -/
structure Fits (f : Fields) : Prop where
  /-- East. -/
  x : f.x.toNat < 16
  /-- South. -/
  z : f.z.toNat < 16
  /-- The number of the corner. -/
  corner : f.corner.toNat < 16
  /-- The brightness. -/
  al : f.al.toNat < 16
  /-- Whether it is grass. -/
  bl : f.bl.toNat < 16
  /-- The column of the texture. -/
  u : f.u.toNat < 16
  /-- The row of the texture. -/
  v : f.v.toNat < 16
  /-- Red light. -/
  r : f.r.toNat < 16
  /-- Green light. -/
  g : f.g.toNat < 16
  /-- Blue light. -/
  b : f.b.toNat < 16

/-- The position and the texture of a vertex, packed. -/
def packed (f : Fields) : UInt32 × UInt8 := PackedVertex.pack f.x f.y f.z f.corner f.al f.bl f.u f.v

/-- The light of a vertex, packed. -/
def color (f : Fields) : UInt16 := PackedVertex.packRgb f.r f.g f.b

/-- What the shader should read. -/
def shown (f : Fields) : Unpacked where
  r := f.r.toUInt32
  g := f.g.toUInt32
  b := f.b.toUInt32
  lx := f.x.toUInt32
  ly := f.y.toUInt32
  lz := f.z.toUInt32
  cornerID := f.corner.toUInt32
  ambientBright := f.al.toUInt32
  isgrass := f.bl.toUInt32
  u := f.u.toUInt32
  v := f.v.toUInt32

variable {f : Fields}

/-- Fields that fit are put side by side: the position. -/
theorem toNat_word (h : f.Fits) : f.packed.1.toNat = f.x.toNat * 2 ^ 28 + f.y.toNat * 2 ^ 20 + f.z.toNat * 2 ^ 16 +
    f.corner.toNat * 2 ^ 12 + f.al.toNat * 2 ^ 8 + f.bl.toNat * 2 ^ 4 := by
  obtain ⟨hx, hz, hcorner, hal, hbl, -, -, -, -, -⟩ := h
  have hy : f.y.toNat < 2 ^ 8 := f.y.toNat_lt
  have hymask : f.y.toUInt32 &&& 255 = f.y.toUInt32 :=
    UInt32.toNat_inj.mp ((Bits.toNat_and_mask _ rfl).trans (Nat.mod_eq_of_lt hy))
  have hzmask : f.z.toUInt32 &&& 15 = f.z.toUInt32 :=
    UInt32.toNat_inj.mp ((Bits.toNat_and_mask _ rfl).trans (Nat.mod_eq_of_lt (b := 2 ^ 4) hz))
  have hshift : ∀ {w : UInt8} {n : ℕ} (k : UInt32), w.toNat < 2 ^ n → k.toNat < 32 → n + k.toNat ≤ 32 →
      (w.toUInt32 <<< k).toNat = w.toNat * 2 ^ k.toNat := fun k hw => Bits.toNat_shiftLeft_of_lt hw
  rw [packed, PackedVertex.pack, hymask, hzmask]
  simp only [UInt32.toNat_or]
  rw [hshift 28 (n := 4) hx (by decide) (by decide), hshift 20 (n := 8) hy (by decide) (by decide),
    hshift 16 (n := 4) hz (by decide) (by decide), hshift 12 (n := 4) hcorner (by decide) (by decide),
    hshift 8 (n := 4) hal (by decide) (by decide), hshift 4 (n := 4) hbl (by decide) (by decide)]
  simp only [UInt32.reduceToNat]
  rw [Bits.or_eq_add (a := _ * _) (k := 28), Bits.or_eq_add (a := _ + _) (k := 20),
    Bits.or_eq_add (a := _ + _) (k := 16), Bits.or_eq_add (a := _ + _) (k := 12),
    Bits.or_eq_add (a := _ + _) (k := 8)] <;> omega

/-- The texture. -/
theorem toNat_byte (h : f.Fits) : f.packed.2.toNat = f.u.toNat * 2 ^ 4 + f.v.toNat := by
  have hu := h.u
  have hv := h.v
  have hshift : (f.u <<< 4).toNat = f.u.toNat * 2 ^ 4 := by
    rw [UInt8.toNat_shiftLeft]
    show f.u.toNat <<< 4 % 2 ^ 8 = _
    rw [Nat.shiftLeft_eq]
    omega
  rw [packed, PackedVertex.pack, UInt8.toNat_or, hshift, Bits.or_eq_add (k := 4)] <;> omega

/-- The light. -/
theorem toNat_color (h : f.Fits) : f.color.toNat = f.r.toNat * 2 ^ 8 + f.g.toNat * 2 ^ 4 + f.b.toNat := by
  have hr := h.r
  have hg := h.g
  have hb := h.b
  have hmask : ∀ w : UInt16, w.toNat < 16 → w &&& 15 = w := by
    intro w hw
    apply UInt16.toNat_inj.mp
    rw [UInt16.toNat_and]
    exact (Nat.and_two_pow_sub_one_eq_mod _ 4).trans (Nat.mod_eq_of_lt hw)
  have hshift : ∀ (w : UInt16), w.toNat < 16 → (w <<< 8).toNat = w.toNat * 2 ^ 8 ∧ (w <<< 4).toNat = w.toNat * 2 ^ 4 := by
    intro w hw
    rw [UInt16.toNat_shiftLeft, UInt16.toNat_shiftLeft]
    show w.toNat <<< 8 % 2 ^ 16 = _ ∧ w.toNat <<< 4 % 2 ^ 16 = _
    rw [Nat.shiftLeft_eq, Nat.shiftLeft_eq]
    omega
  rw [color, PackedVertex.packRgb, hmask _ hr, hmask _ hg, hmask _ hb]
  rw [UInt16.toNat_or, UInt16.toNat_or, (hshift _ hr).1, (hshift _ hg).2,
    Bits.or_eq_add (a := _ * _) (k := 8), Bits.or_eq_add (a := _ + _) (k := 4)] <;> omega

/-- **The shader reads what was packed.** -/
theorem main_packed (h : f.Fits) : Vert.main f.packed.1 f.packed.2.toUInt32 f.color.toUInt32 = f.shown := by
  have hword := toNat_word h
  have hbyte : f.packed.2.toUInt32.toNat = _ := (UInt8.toNat_toUInt32 _).trans (toNat_byte h)
  have hcolor : f.color.toUInt32.toNat = _ := (UInt16.toNat_toUInt32 _).trans (toNat_color h)
  have hy : f.y.toNat < 256 := f.y.toNat_lt
  obtain ⟨hx, hz, hcorner, hal, hbl, hu, hv, hr, hg, hb⟩ := h
  have hfour : ∀ w k : UInt32, k.toNat < 32 → ((w >>> k) &&& 0xF).toNat = w.toNat / 2 ^ k.toNat % 2 ^ 4 :=
    fun w k hk => Bits.toNat_shiftRight_and w hk rfl
  have height : ∀ w k : UInt32, k.toNat < 32 → ((w >>> k) &&& 0xFF).toNat = w.toNat / 2 ^ k.toNat % 2 ^ 8 :=
    fun w k hk => Bits.toNat_shiftRight_and w hk rfl
  have hlow : ∀ w : UInt32, (w &&& 0xF).toNat = w.toNat % 2 ^ 4 := fun w => Bits.toNat_and_mask w rfl
  have hred : ∀ w : UInt32, ((w &&& 0xF00) >>> 8).toNat = w.toNat / 2 ^ 8 % 2 ^ 4 :=
    fun w => Bits.toNat_and_shiftRight w (by decide) (by decide)
  have hgreen : ∀ w : UInt32, ((w &&& 0x0F0) >>> 4).toNat = w.toNat / 2 ^ 4 % 2 ^ 4 :=
    fun w => Bits.toNat_and_shiftRight w (by decide) (by decide)
  rw [Vert.main, shown, Unpacked.mk.injEq]
  simp (disch := decide) only [← UInt32.toNat_inj, hred, hgreen, hfour, height, UInt32.reduceToNat]
  simp only [hlow, hword, hbyte, hcolor, UInt8.toNat_toUInt32, UInt16.toNat_toUInt32]
  omega

end Fields

namespace Blocks

/-- The table of the textures has sixteen columns and rows. -/
theorem getTexCoords_lt (id : UInt32) (side : CubeSide) :
    (getTexCoords id side).1.toNat < 16 ∧ (getTexCoords id side).2.toNat < 16 := by
  have htable : (TEXS.all fun texs => texs.all fun tex => tex.1.toNat < 16 && tex.2.toNat < 16) = true := rfl
  simp only [List.all_eq_true, Bool.and_eq_true, decide_eq_true_eq] at htable
  have hdefault : ∀ {α : Type} (l : List α) (i : ℕ) (d : α), l.getD i d ∈ l ∨ l.getD i d = d := by
    intro α l i d
    rw [List.getD_eq_getElem?_getD]
    cases hget : l[i]? with
    | none => exact .inr rfl
    | some a => exact .inl (List.mem_of_getElem? hget)
  rw [getTexCoords]
  rcases hdefault TEXS (min (id &&& blockIdBits).toNat (TEXS.length - 1)) [] with htexs | htexs
  · rcases hdefault (TEXS.getD (min (id &&& blockIdBits).toNat (TEXS.length - 1)) []) (texOf side) (0, 0) with htex | htex
    · exact htable _ htexs _ htex
    · rw [htex]
      decide
  · rw [htexs, List.getD_nil]
    decide

end Blocks

namespace Cubes

/-- The brightness is at most fifteen. -/
theorem clampedLight_lt (v : Corner) (blocks : ℕ) (hit : Bool) : (clampedLight v blocks hit).toNat < 16 := by
  rw [clampedLight, UInt8.toNat_ofNat']
  omega

variable (blockat : IVec3 → UInt32) (lightmap : LightMap) (pos : IVec2)

/-- The corner of its face that a vertex is. -/
def Vertex.v (v : Vertex) : Corner := (Cube.getSide v.side).getD v.corner ⟨0, 0, 0, 0⟩

/-- What is packed for a vertex. -/
def Vertex.fields (v : Vertex) : Fields where
  x := UInt8.ofNat (v.cell.x - pos.x * CH_W).toNat + v.v.x
  y := UInt8.ofNat v.cell.y.toNat + v.v.y
  z := UInt8.ofNat (v.cell.z - pos.y * CH_W).toNat + v.v.z
  corner := UInt8.ofNat v.corner
  al := v.light
  bl := if blockat v.cell &&& Blocks.blockIdBits = 3 then 1 else 0
  u := (Blocks.getTexCoords (blockat v.cell &&& Blocks.blockIdBits) v.side).1
  v := (Blocks.getTexCoords (blockat v.cell &&& Blocks.blockIdBits) v.side).2
  r := UInt16.ofNat (lightmap.sum (v.cell + v.side.offset)).x
  g := UInt16.ofNat (lightmap.sum (v.cell + v.side.offset)).y
  b := UInt16.ofNat (lightmap.sum (v.cell + v.side.offset)).z

/-- A corner is at most one away from the cell. -/
theorem Vertex.v_le (v : Vertex) : v.v.x.toNat ≤ 1 ∧ v.v.y.toNat ≤ 1 ∧ v.v.z.toNat ≤ 1 := by
  have hsides : ∀ side : CubeSide, ∀ ind < 6, let c := (Cube.getSide side).getD ind ⟨0, 0, 0, 0⟩
      c.x.toNat ≤ 1 ∧ c.y.toNat ≤ 1 ∧ c.z.toNat ≤ 1 := by
    intro side
    cases side <;> decide
  by_cases hcorner : v.corner < 6
  · exact hsides v.side v.corner hcorner
  · rw [Vertex.v, List.getD_eq_default _ _ (by rw [Cube.length_getSide]; omega)]
    decide

/-- The vertex is a corner of a cube of the chunk. -/
structure Vertex.InChunk (v : Vertex) : Prop where
  /-- The cube is in the chunk. -/
  cell : v.cell ∈ chunkCells pos
  /-- A face has six corners. -/
  corner : v.corner < 6
  /-- It is as bright as the corner. -/
  lit : v.Lit blockat

variable {blockat lightmap pos} {v : Vertex}

/-- The position within the chunk does not leave its fields. -/
theorem Vertex.InChunk.position (h : v.InChunk blockat pos) (lightmap : LightMap) :
    ((v.fields blockat lightmap pos).x.toNat : ℤ) = v.cell.x - pos.x * CH_W + v.v.x.toNat ∧
    ((v.fields blockat lightmap pos).y.toNat : ℤ) = v.cell.y + v.v.y.toNat ∧
    ((v.fields blockat lightmap pos).z.toNat : ℤ) = v.cell.z - pos.y * CH_W + v.v.z.toNat := by
  obtain ⟨hx, hy, hz⟩ := v.v_le
  obtain ⟨hpos, hlow, hhigh⟩ := mem_chunkCells.mp h.cell
  obtain ⟨hposx, hposz⟩ := IVec2.mk.inj hpos
  simp only [Vertex.fields, UInt8.toNat_add, UInt8.toNat_ofNat', ← hposx, ← hposz, CH_W, CH_H] at hhigh ⊢
  omega

/-- **What is packed for a vertex fits.** -/
theorem Vertex.InChunk.fits (h : v.InChunk blockat pos) : (v.fields blockat lightmap pos).Fits := by
  obtain ⟨hx, hy, hz⟩ := v.v_le
  obtain ⟨hpos, -, -⟩ := mem_chunkCells.mp h.cell
  obtain ⟨hposx, hposz⟩ := IVec2.mk.inj hpos
  obtain ⟨hfieldx, -, hfieldz⟩ := h.position lightmap
  obtain ⟨hr, hg, hb⟩ := lightmap.sum_le (v.cell + v.side.offset)
  obtain ⟨hu, hv⟩ := Blocks.getTexCoords_lt (blockat v.cell &&& Blocks.blockIdBits) v.side
  obtain ⟨blocks, hit, hlight, -⟩ := h.lit
  have hcorner := h.corner
  refine ⟨?_, ?_, ?_, ?_, ?_, hu, hv, ?_, ?_, ?_⟩
  · simp only [CH_W] at hfieldx hposx
    omega
  · simp only [CH_W] at hfieldz hposz
    omega
  · show (UInt8.ofNat v.corner).toNat < 16
    rw [UInt8.toNat_ofNat']
    omega
  · show v.light.toNat < 16
    rw [hlight]
    exact clampedLight_lt _ _ _
  · show (if _ then 1 else 0 : UInt8).toNat < 16
    split <;> decide
  all_goals
    simp only [Vertex.fields, UInt16.toNat_ofNat']
    omega

/-- The places of a cell are corners of its faces. -/
theorem place_of_cell {spot : IVec3} {place : IVec3 × CubeSide × ℕ}
    (h : place ∈ cellPlaces blockat spot ∨ place ∈ transparentCellPlaces blockat spot) :
    place.1 = spot ∧ place.2.2 < 6 := by
  have hface : ∀ {side : CubeSide}, place ∈ (List.range 6).map (fun ind => (spot, side, ind)) →
      place.1 = spot ∧ place.2.2 < 6 := by
    intro side hmem
    obtain ⟨ind, hind, rfl⟩ := List.mem_map.mp hmem
    exact ⟨rfl, List.mem_range.mp hind⟩
  rcases h with h | h
  · rw [cellPlaces, List.mem_ite_nil_right] at h
    obtain ⟨side, -, hside⟩ := List.mem_flatMap.mp h.2
    rw [facePlaces, List.mem_ite_nil_right] at hside
    exact hface hside.2
  · rw [transparentCellPlaces, List.mem_ite_nil_right] at h
    obtain ⟨side, -, hside⟩ := List.mem_flatMap.mp h.2
    rw [transparentPlaces, List.mem_ite_nil_right, List.mem_append, List.mem_ite_nil_right, List.mem_reverse] at hside
    rcases hside.2 with ⟨-, hbelow⟩ | hfront
    · exact hface hbelow
    · exact hface hfront

/-- **Every vertex of the cubes is read as it was packed.** Fields that have no more bits than
there are for them are read by the shader as they were packed; and for every world and all light,
the streams of the opaque cubes and of the others are made of vertices, whose places are the
corners of the faces that can be seen; what is packed for each of them has no more bits than
there are, and the shader reads it, the position being that of the corner in the chunk. -/
theorem cubes_unpacked :
    (∀ f : Fields, f.Fits → Vert.main f.packed.1 f.packed.2.toUInt32 f.color.toUInt32 = f.shown) ∧
    ∀ (blockat : IVec3 → UInt32) (lightmap : LightMap) (pos : IVec2), ∃ solid transparent : List Vertex,
      let c := cubes blockat lightmap pos
      let fields := Vertex.fields blockat lightmap pos
      ((c.data32 = solid.map fun v => (fields v).packed.1) ∧ (c.data8 = solid.map fun v => (fields v).packed.2) ∧
        c.data8rgb = solid.map fun v => (fields v).color) ∧
      ((c.tdata32 = transparent.map fun v => (fields v).packed.1) ∧
        (c.tdata8 = transparent.map fun v => (fields v).packed.2) ∧
        c.tdata8rgb = transparent.map fun v => (fields v).color) ∧
      (solid.map Vertex.place = (columnCells pos (range0 CH_H).reverse).flatMap (cellPlaces blockat) ∧
        transparent.map Vertex.place = (columnCells pos (range0 CH_H).reverse).flatMap (transparentCellPlaces blockat)) ∧
      ∀ v ∈ solid ++ transparent, v.Lit blockat ∧ (fields v).Fits ∧
        Vert.main (fields v).packed.1 (fields v).packed.2.toUInt32 (fields v).color.toUInt32 = (fields v).shown ∧
        ((fields v).x.toNat : ℤ) = v.cell.x - pos.x * CH_W + v.v.x.toNat ∧
        ((fields v).y.toNat : ℤ) = v.cell.y + v.v.y.toNat ∧
        ((fields v).z.toNat : ℤ) = v.cell.z - pos.y * CH_W + v.v.z.toNat := by
  refine ⟨fun f => Fields.main_packed, ?_⟩
  intro blockat lightmap pos
  obtain ⟨solid, transparent, hdraws, hplaces, htplaces, hlit⟩ := draws_foldl (cellPlaces blockat)
    (transparentCellPlaces blockat) (columnCells pos (range0 CH_H).reverse) (draws_cell blockat lightmap pos) empty
  refine ⟨solid, transparent, ⟨hdraws.data32, hdraws.data8, hdraws.data8rgb⟩,
    ⟨hdraws.tdata32, hdraws.tdata8, hdraws.tdata8rgb⟩, ⟨hplaces, htplaces⟩, ?_⟩
  intro v hv
  have hplace : ∃ spot ∈ columnCells pos (range0 CH_H).reverse,
      v.place ∈ cellPlaces blockat spot ∨ v.place ∈ transparentCellPlaces blockat spot := by
    rcases List.mem_append.mp hv with hsolid | htransparent
    · obtain ⟨spot, hspot, hmem⟩ := List.mem_flatMap.mp (hplaces ▸ List.mem_map_of_mem hsolid)
      exact ⟨spot, hspot, .inl hmem⟩
    · obtain ⟨spot, hspot, hmem⟩ := List.mem_flatMap.mp (htplaces ▸ List.mem_map_of_mem htransparent)
      exact ⟨spot, hspot, .inr hmem⟩
  obtain ⟨spot, hspot, hmem⟩ := hplace
  obtain ⟨hcell, hcorner⟩ := place_of_cell hmem
  have hin : v.InChunk blockat pos := by
    refine ⟨?_, hcorner, hlit v hv⟩
    rw [show v.cell = spot from hcell, chunkCells, mem_columnCells, ← List.mem_reverse, ← mem_columnCells]
    exact hspot
  exact ⟨hin.lit, hin.fits, Fields.main_packed hin.fits, hin.position lightmap⟩

/-- The vertex that the program's own test of the unpacking packs. -/
theorem cubes_unpacked_coord :
    let (u32, eightbit) := PackedVertex.pack 10 50 14 4 12 10 0 0
    Vert.main u32 eightbit.toUInt32 (PackedVertex.packRgb 15 0 7).toUInt32 =
      ⟨15, 0, 7, 10, 50, 14, 4, 12, 10, 0, 0⟩ :=
  cubes_unpacked.1 ⟨10, 50, 14, 4, 12, 10, 0, 0, 15, 0, 7⟩ (by constructor <;> decide)

end Cubes

end Distgard
