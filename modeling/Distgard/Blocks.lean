import Distgard.Light.Color

/-!
# Blocks

A block is a 32-bit word: the identifier of its kind in the lower half, and flags (the
direction of a door, the parity of moving water) in the upper. The tables are the
source's. `isLight` looks at the whole word, so a light that carries a flag is no light;
the other tables are asked with the identifier alone.
-/

namespace Distgard.Blocks

/-- The bits that hold the identifier. -/
def blockIdBits : UInt32 := 0x0000FFFF

/-- The number of kinds that have textures. -/
def getTexsLength : ℕ := 51

/-- Water, glass and the torch. -/
def isTransparent (id : UInt32) : Bool := [2, 8, 49].contains id

/-- Leaves, doors, ladders and other blocks that let light through. -/
def isSemiTransparent (id : UInt32) : Bool := [7, 11, 19, 20, 21, 22, 23, 31, 44, 50].contains id

/-- The blocks that give light. -/
def isLight (id : UInt32) : Bool := [18, 24, 25, 26, 27, 28, 29, 30, 49].contains id

/-- The color of the light a block gives. -/
def getLightColor (id : UInt32) : LightColor :=
  match id with
  | 18 => ⟨15, 15, 15⟩
  | 24 => ⟨0, 0, 15⟩
  | 25 => ⟨7, 0, 10⟩
  | 49 => ⟨10, 8, 1⟩
  | 26 => ⟨15, 15, 0⟩
  | 27 => ⟨15, 0, 0⟩
  | 28 => ⟨0, 15, 0⟩
  | 29 => ⟨15, 7, 0⟩
  | 30 => ⟨2, 15, 12⟩
  | _ => ⟨15, 15, 15⟩

/-- Air and water, in the place of which a block can be put. -/
def isOverwritable (id : UInt32) : Bool := [0, 2].contains id

/-- The items that are no blocks. -/
def isNonPlaceable (id : UInt32) : Bool := [32, 33, 17, 36, 37, 38, 39].contains id

/-- The items that can be eaten. -/
def isFood (id : UInt32) : Bool := [32, 33].contains id

/-- What a food gives to health and stamina. -/
def getFoodStats (_id : UInt32) : ℤ × ℤ := (6, 50)

/-- The bits that hold a direction. -/
def BLOCK_DIRECTION_BITS : UInt32 := 0x00030000

/-- The direction of a block. -/
def getDirectionBits (input : UInt32) : UInt32 := (input &&& BLOCK_DIRECTION_BITS) >>> 16

/-- Set the direction of a block that has none yet. -/
def setDirectionBits (direction input : UInt32) : UInt32 := input ||| direction <<< 16

/-- What light passes through: air, and the transparent and semi-transparent blocks. -/
def passable (block : UInt32) : Bool :=
  block &&& blockIdBits == 0 || isTransparent (block &&& blockIdBits) ||
    isSemiTransparent (block &&& blockIdBits)

end Distgard.Blocks
