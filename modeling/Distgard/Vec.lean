import Mathlib.Algebra.Order.Ring.Int
import Mathlib.Data.List.Basic
import Mathlib.Data.List.Nodup
import Mathlib.Data.List.Range

/-!
# Cells, chunk positions and the faces of a cube

The world is a grid of cells (`IVec3`), cut into chunks of `CH_W × CH_H × CH_W` cells
(`IVec2`). Coordinates are unbounded integers: the source's `i32` wraps at `2 ^ 31`,
beyond anything these results are about. `spotToChunkPos` divides and rounds down; the
source does it through `f32`, which gives the same quotient while the coordinates are
exact there, below `2 ^ 24`.
-/

namespace Distgard

/-- A position in the plane of chunks. -/
@[ext]
structure IVec2 where
  /-- East. -/
  x : ℤ
  /-- South. -/
  y : ℤ
  deriving DecidableEq, Repr

/-- A cell of the world. -/
@[ext]
structure IVec3 where
  /-- East. -/
  x : ℤ
  /-- Up. -/
  y : ℤ
  /-- South. -/
  z : ℤ
  deriving DecidableEq, Repr

instance : Add IVec2 := ⟨fun a b => ⟨a.x + b.x, a.y + b.y⟩⟩

instance : Add IVec3 := ⟨fun a b => ⟨a.x + b.x, a.y + b.y, a.z + b.z⟩⟩

instance : Sub IVec3 := ⟨fun a b => ⟨a.x - b.x, a.y - b.y, a.z - b.z⟩⟩

@[simp] theorem IVec3.add_x (a b : IVec3) : (a + b).x = a.x + b.x := rfl
@[simp] theorem IVec3.add_y (a b : IVec3) : (a + b).y = a.y + b.y := rfl
@[simp] theorem IVec3.add_z (a b : IVec3) : (a + b).z = a.z + b.z := rfl
@[simp] theorem IVec3.sub_x (a b : IVec3) : (a - b).x = a.x - b.x := rfl
@[simp] theorem IVec3.sub_y (a b : IVec3) : (a - b).y = a.y - b.y := rfl
@[simp] theorem IVec3.sub_z (a b : IVec3) : (a - b).z = a.z - b.z := rfl

/-- The coordinate, in both directions, of a slot that holds no chunk yet. -/
def CHUNKPOSDEFAULT : ℤ := 999999

/-- The position of a slot that holds no chunk yet. -/
def defaultPos : IVec2 := ⟨CHUNKPOSDEFAULT, CHUNKPOSDEFAULT⟩

/-- The width of a chunk. -/
def CH_W : ℤ := 15

/-- The height of a chunk. -/
def CH_H : ℤ := 200

/-- The chunk a cell lies in. The source divides as `f32`, and has the same chunk while both coordinates
are below `2 ^ 24` in size; further out, and where an `i32` wraps, it can have another one. -/
def spotToChunkPos (spot : IVec3) : IVec2 := ⟨spot.x / CH_W, spot.z / CH_W⟩

/-! ### The cells of a chunk -/

/-- The numbers from `0` up to, and without, `n`. -/
def range0 (n : ℤ) : List ℤ := (List.range n.toNat).map Int.ofNat

theorem mem_range0 {n x : ℤ} : x ∈ range0 n ↔ 0 ≤ x ∧ x < n := by
  simp only [range0, List.mem_map, List.mem_range]
  constructor
  · rintro ⟨k, hk, rfl⟩
    simp only [Int.ofNat_eq_natCast]
    omega
  · rintro ⟨h0, h1⟩
    exact ⟨x.toNat, by omega, by simpa using h0⟩

/-- The cells of the chunk at `pos` with `y` running through `ys`, `x` outermost and `y`
innermost. -/
def columnCells (pos : IVec2) (ys : List ℤ) : List IVec3 :=
  (range0 CH_W).flatMap fun x => (range0 CH_W).flatMap fun z =>
    ys.map fun y => ⟨pos.x * CH_W + x, y, pos.y * CH_W + z⟩

/-- The cells of the chunk at `pos`, from the bottom up. -/
def chunkCells (pos : IVec2) : List IVec3 := columnCells pos (range0 CH_H)

theorem mem_columnCells {pos : IVec2} {ys : List ℤ} {c : IVec3} :
    c ∈ columnCells pos ys ↔ spotToChunkPos c = pos ∧ c.y ∈ ys := by
  simp only [columnCells, List.mem_flatMap, mem_range0, List.mem_map, spotToChunkPos, CH_W]
  constructor
  · rintro ⟨x, hx, z, hz, y, hy, rfl⟩
    refine ⟨?_, hy⟩
    ext
    · show (pos.x * 15 + x) / 15 = pos.x
      omega
    · show (pos.y * 15 + z) / 15 = pos.y
      omega
  · rintro ⟨rfl, hy⟩
    refine ⟨c.x % 15, by omega, c.z % 15, by omega, c.y, hy, ?_⟩
    ext
    · show c.x / 15 * 15 + c.x % 15 = c.x
      omega
    · rfl
    · show c.z / 15 * 15 + c.z % 15 = c.z
      omega

theorem nodup_range0 (n : ℤ) : (range0 n).Nodup :=
  List.nodup_range.map fun _ _ h => Int.ofNat.inj h

/-- No cell is visited twice. -/
theorem nodup_columnCells (pos : IVec2) {ys : List ℤ} (h : ys.Nodup) : (columnCells pos ys).Nodup := by
  refine List.nodup_flatMap.mpr ⟨fun x _ => List.nodup_flatMap.mpr ⟨fun z _ => h.map fun y y' he => ?_, ?_⟩, ?_⟩
  · exact congrArg IVec3.y he
  · refine (nodup_range0 CH_W).imp fun {z z'} hz c hc hc' => hz ?_
    obtain ⟨y, -, rfl⟩ := List.mem_map.mp hc
    obtain ⟨y', -, he⟩ := List.mem_map.mp hc'
    have := congrArg IVec3.z he
    simp only at this
    omega
  · refine (nodup_range0 CH_W).imp fun {x x'} hx c hc hc' => hx ?_
    obtain ⟨z, -, hc⟩ := List.mem_flatMap.mp hc
    obtain ⟨y, -, rfl⟩ := List.mem_map.mp hc
    obtain ⟨z', -, hc'⟩ := List.mem_flatMap.mp hc'
    obtain ⟨y', -, he⟩ := List.mem_map.mp hc'
    have := congrArg IVec3.x he
    simp only at this
    omega

/-- A cell is in the light scan of its own chunk when its height is within the chunk. -/
theorem mem_chunkCells {pos : IVec2} {c : IVec3} :
    c ∈ chunkCells pos ↔ spotToChunkPos c = pos ∧ 0 ≤ c.y ∧ c.y < CH_H := by
  rw [chunkCells, mem_columnCells, mem_range0]

theorem nodup_chunkCells (pos : IVec2) : (chunkCells pos).Nodup := nodup_columnCells pos (nodup_range0 CH_H)

/-! ### The faces of a cube -/

/-- A face of a cube. -/
inductive CubeSide where
  /-- West. -/
  | LEFT
  /-- East. -/
  | RIGHT
  /-- Down. -/
  | BOTTOM
  /-- Up. -/
  | TOP
  /-- North. -/
  | BACK
  /-- South. -/
  | FRONT
  deriving DecidableEq, Repr

namespace CubeSide

/-- The faces in the order of their numbers. -/
def all : List CubeSide := [LEFT, RIGHT, BOTTOM, TOP, BACK, FRONT]

/-- The step from a cell to the one in front of the face. -/
def offset : CubeSide → IVec3
  | LEFT => ⟨-1, 0, 0⟩
  | RIGHT => ⟨1, 0, 0⟩
  | BOTTOM => ⟨0, -1, 0⟩
  | TOP => ⟨0, 1, 0⟩
  | BACK => ⟨0, 0, -1⟩
  | FRONT => ⟨0, 0, 1⟩

theorem mem_all (s : CubeSide) : s ∈ all := by cases s <;> decide

/-- The face opposite to a face. -/
def opposite : CubeSide → CubeSide
  | LEFT => RIGHT
  | RIGHT => LEFT
  | BOTTOM => TOP
  | TOP => BOTTOM
  | BACK => FRONT
  | FRONT => BACK

/-- Stepping to a neighbor and back ends where it began. -/
theorem opposite_offset_add (c : IVec3) (s : CubeSide) : s.opposite.offset + (c + s.offset) = c := by
  cases s <;> ext <;> simp [offset, opposite]

/-- No cell is its own neighbor. -/
theorem add_offset_ne (c : IVec3) (s : CubeSide) : c + s.offset ≠ c := by
  intro h
  have hx := congrArg IVec3.x h
  have hy := congrArg IVec3.y h
  have hz := congrArg IVec3.z h
  cases s <;> simp [offset] at hx hy hz

end CubeSide

/-- The steps to the six neighbors of a cell, in the order of the faces. -/
def getNeighbors : List IVec3 :=
  [⟨-1, 0, 0⟩, ⟨1, 0, 0⟩, ⟨0, -1, 0⟩, ⟨0, 1, 0⟩, ⟨0, 0, -1⟩, ⟨0, 0, 1⟩]

/-- The neighbors are listed face by face. -/
theorem getNeighbors_eq : getNeighbors = CubeSide.all.map CubeSide.offset := rfl

end Distgard
