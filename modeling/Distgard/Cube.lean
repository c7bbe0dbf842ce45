import Distgard.Blocks
import Distgard.Vec

/-!
# Cubes

The tables from which the faces of cubes are drawn: the corners of a face, the cells whose
blocks darken a corner, the places of the textures, and how a vertex is packed into numbers.
-/

namespace Distgard

/-- A corner of a face: where it is in the cell, and how bright the face is. -/
structure Corner where
  /-- East. -/
  x : UInt8
  /-- Up. -/
  y : UInt8
  /-- South. -/
  z : UInt8
  /-- The brightness of the face. -/
  light : UInt8
  deriving DecidableEq

namespace Cube

/-- The corners of the two triangles of a face, each with its brightness. -/
def getSide : CubeSide → List Corner
  | .LEFT => [⟨0, 0, 1, 12⟩, ⟨0, 0, 0, 12⟩, ⟨0, 1, 0, 12⟩, ⟨0, 1, 0, 12⟩, ⟨0, 1, 1, 12⟩, ⟨0, 0, 1, 12⟩]
  | .RIGHT => [⟨1, 0, 0, 13⟩, ⟨1, 0, 1, 13⟩, ⟨1, 1, 1, 13⟩, ⟨1, 1, 1, 13⟩, ⟨1, 1, 0, 13⟩, ⟨1, 0, 0, 13⟩]
  | .BOTTOM => [⟨0, 0, 1, 7⟩, ⟨1, 0, 1, 7⟩, ⟨1, 0, 0, 7⟩, ⟨1, 0, 0, 7⟩, ⟨0, 0, 0, 7⟩, ⟨0, 0, 1, 7⟩]
  | .TOP => [⟨0, 1, 0, 15⟩, ⟨1, 1, 0, 15⟩, ⟨1, 1, 1, 15⟩, ⟨1, 1, 1, 15⟩, ⟨0, 1, 1, 15⟩, ⟨0, 1, 0, 15⟩]
  | .BACK => [⟨0, 0, 0, 10⟩, ⟨1, 0, 0, 10⟩, ⟨1, 1, 0, 10⟩, ⟨1, 1, 0, 10⟩, ⟨0, 1, 0, 10⟩, ⟨0, 0, 0, 10⟩]
  | .FRONT => [⟨1, 0, 1, 14⟩, ⟨0, 0, 1, 14⟩, ⟨0, 1, 1, 14⟩, ⟨0, 1, 1, 14⟩, ⟨1, 1, 1, 14⟩, ⟨1, 0, 1, 14⟩]

/-- The cells whose blocks darken a corner of a face, as steps from the cell of the cube. -/
def getAmbOcculSpots : CubeSide → ℕ → List IVec3
  | .LEFT, 0 => [⟨-1, -1, 1⟩, ⟨-1, -1, 0⟩, ⟨-1, 0, 1⟩]
  | .LEFT, 1 => [⟨-1, -1, 0⟩, ⟨-1, -1, -1⟩, ⟨-1, 0, -1⟩]
  | .LEFT, 2 => [⟨-1, 0, -1⟩, ⟨-1, 1, -1⟩, ⟨-1, 1, 0⟩]
  | .LEFT, 3 => [⟨-1, 0, -1⟩, ⟨-1, 1, -1⟩, ⟨-1, 1, 0⟩]
  | .LEFT, 4 => [⟨-1, 1, 0⟩, ⟨-1, 1, 1⟩, ⟨-1, 0, 1⟩]
  | .LEFT, 5 => [⟨-1, -1, 1⟩, ⟨-1, -1, 0⟩, ⟨-1, 0, 1⟩]
  | .RIGHT, 0 => [⟨1, -1, 0⟩, ⟨1, -1, -1⟩, ⟨1, 0, -1⟩]
  | .RIGHT, 1 => [⟨1, -1, 0⟩, ⟨1, -1, 1⟩, ⟨1, 0, 1⟩]
  | .RIGHT, 2 => [⟨1, 0, 1⟩, ⟨1, 1, 1⟩, ⟨1, 1, 0⟩]
  | .RIGHT, 3 => [⟨1, 0, 1⟩, ⟨1, 1, 1⟩, ⟨1, 1, 0⟩]
  | .RIGHT, 4 => [⟨1, 1, 0⟩, ⟨1, 1, -1⟩, ⟨1, 0, -1⟩]
  | .RIGHT, 5 => [⟨1, -1, 0⟩, ⟨1, -1, -1⟩, ⟨1, 0, -1⟩]
  | .BOTTOM, 0 => [⟨-1, -1, 0⟩, ⟨-1, -1, 1⟩, ⟨0, -1, 1⟩]
  | .BOTTOM, 1 => [⟨0, -1, 1⟩, ⟨1, -1, 1⟩, ⟨1, -1, 0⟩]
  | .BOTTOM, 2 => [⟨1, -1, 0⟩, ⟨1, -1, -1⟩, ⟨0, -1, -1⟩]
  | .BOTTOM, 3 => [⟨1, -1, 0⟩, ⟨1, -1, -1⟩, ⟨0, -1, -1⟩]
  | .BOTTOM, 4 => [⟨0, -1, -1⟩, ⟨-1, -1, -1⟩, ⟨-1, -1, 0⟩]
  | .BOTTOM, 5 => [⟨-1, -1, 0⟩, ⟨-1, -1, 1⟩, ⟨0, -1, 1⟩]
  | .TOP, 0 => [⟨-1, 1, 0⟩, ⟨-1, 1, -1⟩, ⟨0, 1, -1⟩]
  | .TOP, 1 => [⟨0, 1, -1⟩, ⟨1, 1, -1⟩, ⟨1, 1, 0⟩]
  | .TOP, 2 => [⟨1, 1, 0⟩, ⟨1, 1, 1⟩, ⟨0, 1, 1⟩]
  | .TOP, 3 => [⟨1, 1, 0⟩, ⟨1, 1, 1⟩, ⟨0, 1, 1⟩]
  | .TOP, 4 => [⟨0, 1, 1⟩, ⟨-1, 1, 1⟩, ⟨-1, 1, 0⟩]
  | .TOP, 5 => [⟨-1, 1, 0⟩, ⟨-1, 1, -1⟩, ⟨0, 1, -1⟩]
  | .BACK, 0 => [⟨-1, 0, -1⟩, ⟨-1, -1, -1⟩, ⟨0, -1, -1⟩]
  | .BACK, 1 => [⟨0, -1, -1⟩, ⟨1, -1, -1⟩, ⟨1, 0, -1⟩]
  | .BACK, 2 => [⟨1, 0, -1⟩, ⟨1, 1, -1⟩, ⟨0, 1, -1⟩]
  | .BACK, 3 => [⟨1, 0, -1⟩, ⟨1, 1, -1⟩, ⟨0, 1, -1⟩]
  | .BACK, 4 => [⟨0, 1, -1⟩, ⟨-1, 1, -1⟩, ⟨-1, 0, -1⟩]
  | .BACK, 5 => [⟨-1, 0, -1⟩, ⟨-1, -1, -1⟩, ⟨0, -1, -1⟩]
  | .FRONT, 0 => [⟨0, -1, 1⟩, ⟨1, -1, 1⟩, ⟨1, 0, 1⟩]
  | .FRONT, 1 => [⟨0, -1, 1⟩, ⟨-1, -1, 1⟩, ⟨-1, 0, 1⟩]
  | .FRONT, 2 => [⟨-1, 0, 1⟩, ⟨-1, 1, 1⟩, ⟨0, 1, 1⟩]
  | .FRONT, 3 => [⟨-1, 0, 1⟩, ⟨-1, 1, 1⟩, ⟨0, 1, 1⟩]
  | .FRONT, 4 => [⟨0, 1, 1⟩, ⟨1, 1, 1⟩, ⟨1, 0, 1⟩]
  | .FRONT, 5 => [⟨0, -1, 1⟩, ⟨1, -1, 1⟩, ⟨1, 0, 1⟩]
  | _, _ => []

theorem length_getSide (side : CubeSide) : (getSide side).length = 6 := by cases side <;> rfl

end Cube

namespace Blocks

/-- Where the textures of a block are: of its sides, its bottom and its top. -/
def TEXS : List (List (UInt8 × UInt8)) := [
  [(0, 0), (0, 0), (0, 0)], [(1, 0), (1, 0), (1, 0)], [(2, 0), (2, 0), (2, 0)], [(3, 0), (4, 0), (3, 1)],
  [(4, 0), (4, 0), (4, 0)], [(5, 0), (5, 0), (5, 0)], [(6, 0), (6, 1), (6, 1)], [(7, 0), (7, 0), (7, 0)],
  [(8, 0), (8, 0), (8, 0)], [(9, 0), (9, 0), (9, 0)], [(10, 0), (10, 0), (10, 0)], [(7, 1), (7, 1), (7, 1)],
  [(4, 2), (4, 2), (4, 2)], [(6, 2), (6, 2), (6, 2)], [(7, 2), (7, 2), (7, 2)], [(8, 2), (8, 2), (8, 2)],
  [(0, 3), (0, 3), (0, 3)], [(0, 4), (0, 4), (0, 4)], [(12, 1), (12, 1), (12, 1)], [(12, 0), (12, 0), (12, 0)],
  [(0, 1), (0, 1), (0, 1)], [(14, 2), (14, 2), (14, 2)], [(13, 1), (14, 1), (14, 1)], [(1, 3), (1, 3), (1, 3)],
  [(10, 2), (10, 2), (10, 2)], [(11, 2), (11, 2), (11, 2)], [(12, 2), (12, 2), (12, 2)],
  [(13, 2), (13, 2), (13, 2)], [(10, 3), (10, 3), (10, 3)], [(11, 3), (11, 3), (11, 3)],
  [(12, 3), (12, 3), (12, 3)], [(1, 5), (1, 5), (1, 5)], [(3, 3), (3, 3), (3, 3)], [(2, 3), (2, 3), (2, 3)],
  [(7, 4), (7, 4), (7, 4)], [(2, 4), (2, 4), (2, 4)], [(2, 5), (2, 5), (2, 5)], [(3, 5), (3, 5), (3, 5)],
  [(4, 5), (4, 5), (4, 5)], [(5, 5), (5, 5), (5, 5)], [(10, 4), (10, 4), (10, 4)], [(11, 4), (11, 4), (11, 4)],
  [(10, 5), (10, 5), (10, 5)], [(0, 8), (2, 8), (2, 8)], [(1, 8), (1, 8), (1, 8)], [(10, 6), (10, 6), (10, 6)],
  [(11, 5), (11, 5), (11, 5)], [(1, 6), (1, 6), (1, 6)], [(8, 4), (4, 0), (8, 5)], [(9, 4), (9, 4), (9, 4)],
  [(7, 5), (7, 0), (8, 5)]]

/-- Which of the three textures of a block is that of a side. -/
def texOf : CubeSide → ℕ
  | .BOTTOM => 1
  | .TOP => 2
  | _ => 0

/-- Where the texture of a side of a block is. Kinds past the end of the table have the last. -/
def getTexCoords (id : UInt32) (side : CubeSide) : UInt8 × UInt8 :=
  (TEXS.getD (min (id &&& blockIdBits).toNat (TEXS.length - 1)) []).getD (texOf side) (0, 0)

end Blocks

namespace PackedVertex

/-- A vertex as one word, and its texture as one byte. -/
def pack (x y z corner al bl u v : UInt8) : UInt32 × UInt8 :=
  (x.toUInt32 <<< 28 ||| (y.toUInt32 &&& 255) <<< 20 ||| (z.toUInt32 &&& 15) <<< 16 ||| corner.toUInt32 <<< 12 |||
    al.toUInt32 <<< 8 ||| bl.toUInt32 <<< 4, u <<< 4 ||| v)

/-- A color as one word, four bits to a channel. -/
def packRgb (r g b : UInt16) : UInt16 := (r &&& 15) <<< 8 ||| (g &&& 15) <<< 4 ||| (b &&& 15)

end PackedVertex

end Distgard
