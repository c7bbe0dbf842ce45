import Mathlib.Data.Nat.Notation

/-!
# Slots and inventories

A slot holds the id of an item and how many of it there are. The player has one row of
slots, a chest four. The number of slots is a part of both.
-/

namespace Distgard

/-- How many slots a row has. -/
abbrev ROWLENGTH : ℕ := 8

/-- A slot: the id of an item, and how many of it there are. -/
abbrev Slot := UInt32 × UInt32

/-- The player's inventory. -/
@[ext] structure Inventory where
  /-- Whether the display has to be updated. -/
  dirty : Bool
  /-- The slots. -/
  inv : List Slot
  /-- They are one row. -/
  length_inv : inv.length = ROWLENGTH
  deriving DecidableEq

/-- What a chest holds. -/
@[ext] structure ChestInventory where
  /-- Whether the display has to be updated. -/
  dirty : Bool
  /-- The slots. -/
  inv : List Slot
  /-- They are four rows. -/
  length_inv : inv.length = ROWLENGTH * 4
  deriving DecidableEq

namespace ChestInventory

/-- A chest as it is when it is opened for the first time. -/
def empty : ChestInventory where
  dirty := true
  inv := List.replicate (ROWLENGTH * 4) (0, 0)
  length_inv := List.length_replicate

theorem lt_length_inv (chest : ChestInventory) (i : Fin (ROWLENGTH * 4)) : (i : ℕ) < chest.inv.length := by
  rw [chest.length_inv]
  exact i.isLt

end ChestInventory

namespace Inventory

/-- Put an item into a slot, instead of what it held. -/
def setInInventory (slot : ℕ) (newid newcount : UInt32) (inv : Inventory) : Inventory where
  dirty := true
  inv := inv.inv.set slot (newid, newcount)
  length_inv := by rw [List.length_set, inv.length_inv]

@[simp] theorem inv_setInInventory (slot : ℕ) (newid newcount : UInt32) (inv : Inventory) :
    (inv.setInInventory slot newid newcount).inv = inv.inv.set slot (newid, newcount) := rfl

@[simp] theorem dirty_setInInventory (slot : ℕ) (newid newcount : UInt32) (inv : Inventory) :
    (inv.setInInventory slot newid newcount).dirty = true := rfl

theorem lt_length_inv (inv : Inventory) (i : Fin ROWLENGTH) : (i : ℕ) < inv.inv.length := by
  rw [inv.length_inv]
  exact i.isLt

end Inventory

end Distgard
