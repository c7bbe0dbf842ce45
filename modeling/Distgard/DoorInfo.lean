import Distgard.Blocks
import Distgard.Lib.Bits
import Distgard.Vec

/-!
# Doors

A door is two blocks, one above the other. Besides the direction each has three flags: the
door is open, this block is the upper one, and the leaf hangs on the opposite side, as the
second leaf of a double door does.

`Whole` is what it means for the doors of a world to be whole: the two halves differ in the
flag for the upper one, and in nothing else.

## What is proved

* `Whole.of_changed` — doors stay whole where whole doors are put in the place of others.
* `Whole.halves` — what the halves of a whole door have in common.
-/

namespace Distgard

open Lib

namespace DoorInfo

/-- The flag of an open door. -/
def DOOROPEN_BITS : UInt32 := 0x00040000

/-- The flag of the upper half. -/
def DOORTOP_BITS : UInt32 := 0x00080000

/-- The flag of a leaf that hangs on the opposite side. -/
def OPPOSITEDOOR_BITS : UInt32 := 0x00100000

/-- Whether the leaf hangs on the opposite side. -/
def getOppositeDoorBits (input : UInt32) : UInt32 := (input &&& OPPOSITEDOOR_BITS) >>> 20

/-- Hang the leaf on one side. -/
def setOppositeDoorBits (bit input : UInt32) : UInt32 := input &&& ~~~OPPOSITEDOOR_BITS ||| bit <<< 20

/-- Whether the door is open. -/
def getDoorOpenBit (input : UInt32) : UInt32 := (input &&& DOOROPEN_BITS) >>> 18

/-- Open a closed door, close an open one. -/
def toggleDoorOpenBit (input : UInt32) : UInt32 := input ^^^ DOOROPEN_BITS

/-- Whether this is the upper half. -/
def getDoorTopBit (input : UInt32) : UInt32 := (input &&& DOORTOP_BITS) >>> 19

/-- The cell of the other half of a door. -/
def otherHalf (spot : IVec3) (blockbits : UInt32) : IVec3 :=
  if getDoorTopBit blockbits = 1 then spot + ⟨0, -1, 0⟩ else spot + ⟨0, 1, 0⟩

/-- A block is a half of a door. -/
def IsDoor (blockbits : UInt32) : Prop := blockbits &&& Blocks.blockIdBits = 19

instance (blockbits : UInt32) : Decidable (IsDoor blockbits) := inferInstanceAs (Decidable (_ = _))

/-! ### Halves -/

theorem topBit_cases (w : UInt32) : getDoorTopBit w = 0 ∨ getDoorTopBit w = 1 := by
  rcases Bits.flag_cases w (m := DOORTOP_BITS) (i := 19) (by decide) with h | h
  · left
    rw [getDoorTopBit, h]
    rfl
  · right
    rw [getDoorTopBit, h]
    rfl

/-- The two halves of a door differ in which is the upper one. -/
theorem topBit_xor (w : UInt32) : getDoorTopBit (w ^^^ DOORTOP_BITS) = 1 - getDoorTopBit w := by
  rw [getDoorTopBit, getDoorTopBit, Bits.xor_and_distrib]
  rcases Bits.flag_cases w (m := DOORTOP_BITS) (i := 19) (by decide) with h | h
  · rw [h]
    rfl
  · rw [h]
    rfl

/-- A half is the other half of its other half. -/
theorem otherHalf_otherHalf (spot : IVec3) (w : UInt32) : otherHalf (otherHalf spot w) (w ^^^ DOORTOP_BITS) = spot := by
  rw [otherHalf, otherHalf, topBit_xor]
  rcases topBit_cases w with h | h
  · rw [h, if_pos (by decide), if_neg (by decide)]
    ext <;> simp
  · rw [h, if_neg (by decide), if_pos rfl]
    ext <;> simp

theorem otherHalf_ne (spot : IVec3) (w : UInt32) : otherHalf spot w ≠ spot := by
  intro h
  have hy := congrArg IVec3.y h
  rw [otherHalf] at hy
  split at hy
  · rw [IVec3.add_y] at hy
    simp only at hy
    omega
  · rw [IVec3.add_y] at hy
    simp only at hy
    omega

theorem otherHalf_eq_of_topBit {w w' : UInt32} (h : getDoorTopBit w = getDoorTopBit w') (spot : IVec3) :
    otherHalf spot w = otherHalf spot w' := by rw [otherHalf, otherHalf, h]

theorem isDoor_xor_top (w : UInt32) : IsDoor (w ^^^ DOORTOP_BITS) ↔ IsDoor w := by
  rw [IsDoor, IsDoor, Bits.xor_and_of_disjoint (by decide)]

theorem topBit_toggle (w : UInt32) : getDoorTopBit (toggleDoorOpenBit w) = getDoorTopBit w := by
  rw [getDoorTopBit, getDoorTopBit, toggleDoorOpenBit, Bits.xor_and_of_disjoint (by decide)]

/-- A toggle of both halves keeps what tells them apart. -/
theorem toggle_xor_top (w : UInt32) :
    toggleDoorOpenBit (w ^^^ DOORTOP_BITS) = toggleDoorOpenBit w ^^^ DOORTOP_BITS := by
  rw [toggleDoorOpenBit, toggleDoorOpenBit, UInt32.xor_assoc, UInt32.xor_assoc, UInt32.xor_comm DOORTOP_BITS]

/-- A toggle opens a closed door and closes an open one. -/
theorem openBit_toggle (w : UInt32) : getDoorOpenBit (toggleDoorOpenBit w) = 1 - getDoorOpenBit w := by
  rw [getDoorOpenBit, getDoorOpenBit, toggleDoorOpenBit, Bits.xor_and_distrib]
  rcases Bits.flag_cases w (m := DOOROPEN_BITS) (i := 18) (by decide) with h | h
  · rw [h]
    rfl
  · rw [h]
    rfl

/-- Hanging the leaf leaves what lies outside of its flag. -/
theorem setOpposite_and {bit k : UInt32} (hclear : ~~~OPPOSITEDOOR_BITS &&& k = k) (hbit : bit <<< 20 &&& k = 0)
    (w : UInt32) : setOppositeDoorBits bit w &&& k = w &&& k := by
  rw [setOppositeDoorBits, Bits.or_and_of_disjoint hbit, Bits.clear_and_of_disjoint hclear]

theorem topBit_setOpposite {bit : UInt32} (hbit : bit <<< 20 &&& DOORTOP_BITS = 0) (w : UInt32) :
    getDoorTopBit (setOppositeDoorBits bit w) = getDoorTopBit w := by
  rw [getDoorTopBit, getDoorTopBit, setOpposite_and (by decide) hbit]

/-- Hanging the leaves of both halves keeps what tells them apart. -/
theorem setOpposite_xor_top {bit : UInt32} (hbit : DOORTOP_BITS &&& bit <<< 20 = 0) (w : UInt32) :
    setOppositeDoorBits bit (w ^^^ DOORTOP_BITS) = setOppositeDoorBits bit w ^^^ DOORTOP_BITS := by
  have hclear : (w ^^^ DOORTOP_BITS) &&& ~~~OPPOSITEDOOR_BITS = (w &&& ~~~OPPOSITEDOOR_BITS) ^^^ DOORTOP_BITS := by
    rw [Bits.xor_and_distrib]
    rfl
  rw [setOppositeDoorBits, setOppositeDoorBits, hclear, Bits.xor_or_of_disjoint hbit]

/-! ### Whole doors -/

/-- The doors of a world are whole: the other half of each differs in the flag for the upper
half, and in nothing else. -/
def Whole (blockat : IVec3 → UInt32) : Prop :=
  ∀ spot, IsDoor (blockat spot) → blockat (otherHalf spot (blockat spot)) = blockat spot ^^^ DOORTOP_BITS

variable {blockat blockat' : IVec3 → UInt32}

/-- Two blocks are the halves of a door. -/
structure Halves (half other : UInt32) : Prop where
  /-- The other is a half of a door, too. -/
  door : IsDoor other
  /-- One of them is the upper half. -/
  top : getDoorTopBit other = 1 - getDoorTopBit half
  /-- They have the same direction. -/
  direction : Blocks.getDirectionBits other = Blocks.getDirectionBits half
  /-- They are both open or both closed. -/
  opened : getDoorOpenBit other = getDoorOpenBit half
  /-- Their leaves hang on the same side. -/
  opposite : getOppositeDoorBits other = getOppositeDoorBits half

/-- **What the halves have in common**: all but which is the upper one. -/
theorem Whole.halves (h : Whole blockat) {spot : IVec3} (hdoor : IsDoor (blockat spot)) :
    Halves (blockat spot) (blockat (otherHalf spot (blockat spot))) := by
  rw [h spot hdoor]
  constructor
  · exact (isDoor_xor_top _).mpr hdoor
  · exact topBit_xor _
  · rw [Blocks.getDirectionBits, Blocks.getDirectionBits, Bits.xor_and_of_disjoint (by decide)]
  · rw [getDoorOpenBit, getDoorOpenBit, Bits.xor_and_of_disjoint (by decide)]
  · rw [getOppositeDoorBits, getOppositeDoorBits, Bits.xor_and_of_disjoint (by decide)]

/-- **Doors stay whole** where some cells change, with the door of a half also its other half,
and the doors there afterwards are whole. -/
theorem Whole.of_changed (h : Whole blockat) (changed : IVec3 → Prop)
    (hout : ∀ spot, ¬ changed spot → blockat' spot = blockat spot)
    (hclosed : ∀ spot, changed spot → IsDoor (blockat spot) → changed (otherHalf spot (blockat spot)))
    (hin : ∀ spot, changed spot → IsDoor (blockat' spot) →
      blockat' (otherHalf spot (blockat' spot)) = blockat' spot ^^^ DOORTOP_BITS) : Whole blockat' := by
  intro spot hdoor
  by_cases hspot : changed spot
  · exact hin spot hspot hdoor
  · rw [hout spot hspot] at hdoor ⊢
    have hother := h spot hdoor
    rw [hout, hother]
    intro hchanged
    have hback := hclosed _ hchanged (by rw [hother, isDoor_xor_top]; exact hdoor)
    rw [hother, otherHalf_otherHalf] at hback
    exact hspot hback

/-- Doors stay whole where the two halves of a door are replaced by the halves of another, or
by no doors. -/
theorem Whole.replace (h : Whole blockat) {spot : IVec3} (hdoor : IsDoor (blockat spot)) (half other : UInt32)
    (hhalf : blockat' spot = half) (hother : blockat' (otherHalf spot (blockat spot)) = other)
    (hout : ∀ s, s ≠ spot → s ≠ otherHalf spot (blockat spot) → blockat' s = blockat s)
    (hnew : ¬ IsDoor half ∧ ¬ IsDoor other ∨
      getDoorTopBit half = getDoorTopBit (blockat spot) ∧ other = half ^^^ DOORTOP_BITS) : Whole blockat' := by
  apply h.of_changed fun s => s = spot ∨ s = otherHalf spot (blockat spot)
  · intro s hs
    rw [not_or] at hs
    exact hout s hs.1 hs.2
  · rintro s (rfl | rfl) _
    · exact Or.inr rfl
    · left
      rw [h spot hdoor, otherHalf_otherHalf]
  · rcases hnew with ⟨hno, hno'⟩ | ⟨htop, heq⟩
    · rintro s (rfl | rfl) hs
      · rw [hhalf] at hs
        exact absurd hs hno
      · rw [hother] at hs
        exact absurd hs hno'
    · rintro s (rfl | rfl) _
      · rw [hhalf, otherHalf_eq_of_topBit htop, hother, heq]
      · have hback : otherHalf (otherHalf spot (blockat spot)) (half ^^^ DOORTOP_BITS) = spot := by
          rw [← otherHalf_eq_of_topBit htop, otherHalf_otherHalf]
        rw [hother, heq, hback, hhalf, UInt32.xor_assoc, UInt32.xor_self, UInt32.xor_zero]

/-- Doors stay whole where a block that is no door is put in the place of another. -/
theorem Whole.update (h : Whole blockat) {spot : IVec3} {block : UInt32} (hdoor : ¬ IsDoor (blockat spot))
    (hblock : ¬ IsDoor block) : Whole (Function.update blockat spot block) := by
  apply h.of_changed fun s => s = spot
  · intro s hs
    exact Function.update_of_ne hs _ _
  · rintro s rfl hs
    exact absurd hs hdoor
  · rintro s rfl hs
    rw [Function.update_self] at hs
    exact absurd hs hblock

/-- Doors stay whole where a door is put in the place of two blocks that are no doors. -/
theorem Whole.place (h : Whole blockat) {spot : IVec3} {half : UInt32} (hbottom : getDoorTopBit half = 0)
    (hspot : ¬ IsDoor (blockat spot)) (habove : ¬ IsDoor (blockat (spot + ⟨0, 1, 0⟩))) :
    Whole (Function.update (Function.update blockat spot half) (spot + ⟨0, 1, 0⟩) (half ^^^ DOORTOP_BITS)) := by
  have hup : otherHalf spot half = spot + ⟨0, 1, 0⟩ := by
    rw [otherHalf, hbottom]
    rfl
  have hne : spot ≠ spot + ⟨0, 1, 0⟩ := by
    rw [← hup]
    exact (otherHalf_ne spot half).symm
  apply h.of_changed fun s => s = spot ∨ s = spot + ⟨0, 1, 0⟩
  · intro s hs
    rw [not_or] at hs
    rw [Function.update_of_ne hs.2, Function.update_of_ne hs.1]
  · rintro s (rfl | rfl) hs
    · exact absurd hs hspot
    · exact absurd hs habove
  · rintro s (rfl | rfl) _
    · rw [Function.update_of_ne hne, Function.update_self, hup, Function.update_self]
    · rw [Function.update_self, ← hup, otherHalf_otherHalf, hup, Function.update_of_ne hne, Function.update_self,
        UInt32.xor_assoc, UInt32.xor_self, UInt32.xor_zero]

end DoorInfo

end Distgard
