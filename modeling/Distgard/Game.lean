import Distgard.Crafting
import Distgard.DoorInfo
import Distgard.Edit

/-!
# What a player does

The player's part of the program, as it runs without a network: placing and breaking blocks
with the two rays, opening chests and moving items between slots, crafting, eating, picking
up what lies around, and dying.

## The model

* `Game` is the state these handlers share. Each handler is a function on it; breaking is a
  relation (`CastBreakRay`), because the loop that fells a cactus may go on forever.
* What the rays hit is an argument (`Aim`): the cell, the side at which it is hit, the cell of
  the camera and the direction the player looks in. The source computes these in floats.
* A click on a slot names the slot under the mouse. Pickups name the drops that are close.
* `Event` lists the handlers, `Happens` what each does. The interface, sound and drawing are
  left out, and of the craft menu whether it is open.
-/

namespace Distgard

open Lib

/-- The items a player starts with, in life and after every death. -/
def STARTINGITEMS : List Slot := [(31, 1), (49, 10), (0, 0), (0, 0), (0, 0), (0, 0), (0, 0), (0, 0)]

/-- What can be crafted. -/
def RECIPES : List Recipe := [
  ⟨[(6, 1)], (10, 4)⟩,
  ⟨[(10, 4)], (19, 2)⟩,
  ⟨[(10, 2)], (20, 10)⟩,
  ⟨[(10, 8)], (21, 1)⟩,
  ⟨[(11, 1)], (18, 1)⟩,
  ⟨[(22, 1)], (30, 1)⟩,
  ⟨[(10, 10)], (31, 1)⟩,
  ⟨[(1, 1)], (8, 1)⟩,
  ⟨[(18, 1), (34, 1)], (24, 1)⟩,
  ⟨[(1, 1)], (14, 8)⟩,
  ⟨[(5, 1)], (9, 1)⟩,
  ⟨[(22, 1)], (33, 4)⟩,
  ⟨[(32, 1), (18, 1)], (27, 1)⟩,
  ⟨[(24, 1), (27, 1)], (25, 1)⟩,
  ⟨[(33, 1), (18, 1)], (26, 1)⟩,
  ⟨[(10, 1), (35, 3)], (36, 1)⟩,
  ⟨[(10, 1), (35, 17)], (37, 1)⟩,
  ⟨[(10, 1), (35, 8)], (38, 1)⟩,
  ⟨[(10, 1), (35, 14)], (39, 1)⟩,
  ⟨[(24, 1), (26, 1)], (40, 1)⟩,
  ⟨[(10, 1), (22, 1)], (42, 1)⟩,
  ⟨[(10, 1), (22, 1), (35, 1)], (45, 10)⟩,
  ⟨[(42, 1), (22, 1)], (46, 1)⟩,
  ⟨[(35, 1)], (47, 10)⟩,
  ⟨[(10, 1), (5, 1)], (49, 4)⟩]

/-- A slot on the screen. -/
inductive SlotIndexType where
  /-- A slot of the open chest. -/
  | ChestSlot (e : Fin (ROWLENGTH * 4))
  /-- A slot of the inventory. -/
  | InvSlot (e : Fin ROWLENGTH)
  /-- No slot. -/
  | None
  deriving DecidableEq

/-- What the camera looks at, and from where. -/
structure Aim where
  /-- The cell that is hit, if one is. -/
  blockHit : Option IVec3
  /-- The side at which it is hit. -/
  hitNormal : CubeSide
  /-- The cell of the camera. -/
  camblockspot : IVec3
  /-- The direction a block put there gets. -/
  direction : Fin 4

/-- The state of a game, as far as its blocks and items go. -/
@[ext] structure Game where
  /-- The world. -/
  csys : ChunkSystem
  /-- The inventory. -/
  inventory : Inventory
  /-- The chests that have been opened, by their cells. -/
  chestRegistry : HashMap IVec3 ChestInventory
  /-- The cell of the chest that was opened last. -/
  currentChest : IVec3
  /-- Whether it is still open. -/
  chestOpen : Bool
  /-- What the mouse carries. -/
  mouseSlot : Slot
  /-- The items that lie around. -/
  drops : List Slot
  /-- The slot that is selected. -/
  bumpedSlot : Fin ROWLENGTH
  /-- The player's health. -/
  health : Int8

namespace Inventory

/-- Take one item out of a slot that was found to hold `slot`. -/
def useOne (i : ℕ) (slot : Slot) (inv : Inventory) : Inventory where
  dirty := inv.dirty
  inv := if slot.2 = 1 then inv.inv.set i (0, 0)
    else inv.inv.set i ((inv.inv.getD i (0, 0)).1, (inv.inv.getD i (0, 0)).2 - 1)
  length_inv := by
    split
    · rw [List.length_set, inv.length_inv]
    · rw [List.length_set, inv.length_inv]

/-- Replace a slot. -/
def setSlot (i : ℕ) (slot : Slot) (inv : Inventory) : Inventory where
  dirty := inv.dirty
  inv := inv.inv.set i slot
  length_inv := by rw [List.length_set, inv.length_inv]

/-- Put items into the first slot that holds the same, or else into the first empty one. -/
def addToInventory (id count : UInt32) (inv : Inventory) : Option Inventory :=
  match inv.inv.findIdx? fun item => item.1 = id with
  | some i => some (inv.setInInventory i id ((inv.inv.getD i (0, 0)).2 + count))
  | none =>
    match inv.inv.findIdx? fun item => item.1 = 0 with
    | some i => some (inv.setInInventory i id count)
    | none => none

/-- Start anew. -/
def startingItems (inv : Inventory) : Inventory := ⟨inv.dirty, STARTINGITEMS, rfl⟩

end Inventory

/-- Replace a slot of a chest. -/
def ChestInventory.setSlot (i : ℕ) (slot : Slot) (chest : ChestInventory) : ChestInventory where
  dirty := chest.dirty
  inv := chest.inv.set i slot
  length_inv := by rw [List.length_set, chest.length_inv]

namespace ChunkSystem

variable (e : ℕ → Entropy)

/-- The axis along which doors of a direction stand side by side. -/
def neighborAxes : Fin 4 → IVec3
  | 0 => ⟨1, 0, 0⟩
  | 1 => ⟨0, 0, 1⟩
  | 2 => ⟨1, 0, 0⟩
  | 3 => ⟨0, 0, 1⟩

/-- Hang the leaves of a new door and of the one beside it, if there is one of the same
direction: of the new one on the opposite side. -/
def pairDoor (i : ℕ) (direction : UInt32) (neigh : IVec3) (blockbits : UInt32)
    (s : ChunkSystem × UInt32 × UInt32) : ChunkSystem × UInt32 × UInt32 :=
  if blockbits &&& Blocks.blockIdBits = 19 ∧ Blocks.getDirectionBits blockbits = direction ∧
      DoorInfo.getDoorTopBit blockbits = 0 then
    let up := neigh + ⟨0, 1, 0⟩
    let neightopbits := s.1.blockat up
    ((s.1.setBlockAndQueueRerender (e i) neigh (DoorInfo.setOppositeDoorBits 0 blockbits) false true
        true).setBlockAndQueueRerender (e (i + 1)) up (DoorInfo.setOppositeDoorBits 0 neightopbits) false true true,
      DoorInfo.setOppositeDoorBits 1 s.2.1, DoorInfo.setOppositeDoorBits 1 s.2.2)
  else s

/-- Put a door somewhere, if there is air above and something below. -/
def placeDoor (direction : Fin 4) (placePoint : IVec3) (cs : ChunkSystem) : ChunkSystem :=
  let placeAbove := placePoint + ⟨0, 1, 0⟩
  let placeBelow := placePoint + ⟨0, -1, 0⟩
  if cs.blockat placeAbove = 0 ∧ cs.blockat placeBelow ≠ 0 then
    let dir := UInt32.ofNat direction
    let bottomId := Blocks.setDirectionBits dir 19
    let topId := Blocks.setDirectionBits dir (19 ||| DoorInfo.DOORTOP_BITS)
    let along := direction = 0 ∨ direction = 1
    let left := if along then placePoint - neighborAxes direction else placePoint + neighborAxes direction
    let right := if along then placePoint + neighborAxes direction else placePoint - neighborAxes direction
    let blockbitsright := cs.blockat right
    let blockbitsleft := cs.blockat left
    let s := pairDoor e 0 dir right blockbitsright (cs, bottomId, topId)
    let s := pairDoor e 2 dir left blockbitsleft s
    (s.1.setBlockAndQueueRerender (e 4) placePoint s.2.1 false true true).setBlockAndQueueRerender (e 5) placeAbove
      s.2.2 false true true
  else cs

/-- Put a block somewhere. Conveyors, ladders and chests get the direction. -/
def placeBlock (direction : Fin 4) (placePoint : IVec3) (id : UInt32) (cs : ChunkSystem) : ChunkSystem :=
  if id = 19 then placeDoor e direction placePoint cs
  else if id = 45 ∨ id = 20 ∨ id = 21 then
    cs.setBlockAndQueueRerender (e 0) placePoint (Blocks.setDirectionBits (UInt32.ofNat direction) id) false true false
  else if ¬ Blocks.isNonPlaceable id then cs.setBlockAndQueueRerender (e 0) placePoint id false true false
  else cs

/-- One round of the loop that takes a block away with all connected ones of its kind. The
last cell put on the stack comes first in the list. -/
def deleteRound (id : UInt32) (s : List IVec3 × ChunkSystem × HashSet IVec2) :
    Option (List IVec3 × ChunkSystem × HashSet IVec2) :=
  match s with
  | ([], _, _) => none
  | (current :: stack, cs, set) =>
    if cs.blockat current ≠ 0 then
      let cs := cs.setBlock current 0 true
      some (getNeighbors.foldl (fun stack neighbor =>
        if cs.blockat (neighbor + current) = id then (neighbor + current) :: stack else stack) stack,
        cs, set.insert (spotToChunkPos current))
    else some (stack, cs, set)

end ChunkSystem

/-- Let an item fall. Leaves turn into apples by chance. -/
def addDrop (draw blockId amt : UInt32) (drops : List Slot) : List Slot :=
  drops ++ [(if blockId = 7 ∧ draw < 3 then 32 else blockId, amt)]

/-- Pick up the drops that are close, one after the other, as long as there is room. -/
def pickUp (near : ℕ → Bool) : ℕ → List Slot → Inventory → Inventory × List Slot
  | _, [], inv => (inv, [])
  | index, drop :: drops, inv =>
    if near index then
      match inv.addToInventory drop.1 drop.2 with
      | some inv => pickUp near (index + 1) drops inv
      | none => ((pickUp near (index + 1) drops inv).1, drop :: (pickUp near (index + 1) drops inv).2)
    else ((pickUp near (index + 1) drops inv).1, drop :: (pickUp near (index + 1) drops inv).2)

namespace Game

variable (e : ℕ → Entropy)

/-- Remember the current chest, if it was not opened before. -/
def updateInventory (g : Game) : Game :=
  match g.chestRegistry.lookup g.currentChest with
  | some _ => g
  | none => { g with chestRegistry := g.chestRegistry.insert g.currentChest ChestInventory.empty }

/-- Use the block that is hit, or put what the selected slot holds against it. The second
component says that a chest is opened; nothing at all comes out where a block has no place. -/
def useHit (aim : Aim) (slot : Slot) (blockHit : IVec3) (g : Game) : Option (Game × Bool) :=
  let blockbitshere := g.csys.blockat blockHit
  let blockidhere := blockbitshere &&& Blocks.blockIdBits
  if blockidhere = 19 then
    let otherhalf := DoorInfo.otherHalf blockHit blockbitshere
    let otherhalfbits := g.csys.blockat otherhalf
    some ({ g with
      csys := (g.csys.setBlock otherhalf (DoorInfo.toggleDoorOpenBit otherhalfbits) true).setBlockAndQueueRerender (e 0)
        blockHit (DoorInfo.toggleDoorOpenBit blockbitshere) true true true }, false)
  else if blockidhere = 21 then some ({ g with currentChest := blockHit }, true)
  else if blockidhere = 31 then some (g, false)
  else if slot.1 ≠ 0 ∧ 0 < slot.2 then
    let placePoint := blockHit + aim.hitNormal.offset
    if ¬ Blocks.isOverwritable (g.csys.blockat placePoint &&& Blocks.blockIdBits) then none
    else if placePoint = aim.camblockspot ∨ placePoint = aim.camblockspot - ⟨0, 1, 0⟩ then none
    else some ({ g with
      csys := g.csys.placeBlock e aim.direction placePoint slot.1
      inventory := if ¬ Blocks.isNonPlaceable slot.1 then g.inventory.useOne g.bumpedSlot slot else g.inventory }, false)
  else some (g, false)

/-- Eat what the selected slot holds, if it is food. -/
def eat (slot : Slot) (g : Game) : Game :=
  if Blocks.isFood slot.1 then
    { g with
      health := min (g.health + Int8.ofInt (Blocks.getFoodStats slot.1).1) 20
      inventory := g.inventory.useOne g.bumpedSlot slot }
  else g

/-- What the selected slot holds. -/
def selected (g : Game) : Slot := g.inventory.inv.getD g.bumpedSlot (0, 0)

/-- Use what is hit, place a block, eat. -/
def castPlaceRay (aim : Aim) (g : Game) : Game :=
  match aim.blockHit with
  | none => g.eat g.selected
  | some blockHit =>
    match g.useHit e aim g.selected blockHit with
    | none => g
    | some (g', updateinv) =>
      if updateinv then { (g'.eat g.selected).updateInventory with chestOpen := true } else g'.eat g.selected

/-- Break what is hit: a cactus with all that is connected, a door with its other half, or one
block. -/
def CastBreakRay (draw : UInt32) (aim : Aim) (g g' : Game) : Prop :=
  match aim.blockHit with
  | none => g' = g
  | some blockHit =>
    let blockbits := g.csys.blockat blockHit
    let blockat := blockbits &&& Blocks.blockIdBits
    if blockat = 16 then
      ∃ k cs set, Loop.Ends (ChunkSystem.deleteRound 16) k ([blockHit], g.csys, []) ([], cs, set) ∧
        g' = { g with
          csys := ((e 0).chunks.iter set).foldl (fun cs key => cs.queueRerenderWithKey key true false) cs
          drops := addDrop draw 17 1 g.drops }
    else if blockat = 19 then
      g' = { g with
        csys := (g.csys.setBlock blockHit 0 true).setBlockAndQueueRerender (e 0) (DoorInfo.otherHalf blockHit blockbits) 0
          true true false
        drops := addDrop draw 19 1 g.drops }
    else
      g' = { g with
        csys := g.csys.setBlockAndQueueRerender (e 0) blockHit 0 true true false
        drops := if blockat ≠ 0 then addDrop draw blockat 1 g.drops else g.drops }

/-- A click on a slot: items of one kind are put together, others change places. The last
component says that they did. -/
def clickSlot (slot mouseSlot : Slot) : Slot × Slot × Bool :=
  if slot.1 = mouseSlot.1 then ((slot.1, slot.2 + mouseSlot.2), (0, 0), false) else (mouseSlot, slot, true)

/-- A click while a chest is open. -/
def mouseButton (moused : SlotIndexType) (g : Game) : Game :=
  if g.chestOpen then
    match moused with
    | .ChestSlot i =>
      match g.chestRegistry.lookup g.currentChest with
      | some chest =>
        let click := clickSlot (chest.inv.getD i (0, 0)) g.mouseSlot
        let g := { g with
          chestRegistry := g.chestRegistry.insert g.currentChest (chest.setSlot i click.1), mouseSlot := click.2.1 }
        if click.2.2 then g.updateInventory else g
      | none => g
    | .InvSlot i =>
      let click := clickSlot (g.inventory.inv.getD i (0, 0)) g.mouseSlot
      let g := { g with inventory := g.inventory.setSlot i click.1, mouseSlot := click.2.1 }
      if click.2.2 then g.updateInventory else g
    | .None => g
  else g

/-- Select another slot. -/
def scroll (invrowchange : ℤ) (g : Game) : Game :=
  let proposednewslot : ℤ := g.bumpedSlot + invrowchange
  { g with bumpedSlot :=
      ⟨(if proposednewslot < 0 then ROWLENGTH - 1 else proposednewslot.toNat) % ROWLENGTH, Nat.mod_lt _ (by decide)⟩ }

/-- Pick up what is close. -/
def updateDrops (near : ℕ → Bool) (g : Game) : Game :=
  let picked := pickUp near 0 g.drops g.inventory
  { g with inventory := picked.1, drops := picked.2 }

/-- Get hurt. Who dies leaves the items behind. -/
def takeDamage (draws : ℕ → UInt32) (amount : UInt8) (g : Game) : Game :=
  let newamount := max (g.health - amount.toInt8) 0
  if newamount ≤ 0 then
    { g with
      drops := g.inventory.inv.zipIdx.foldl (fun drops slot => addDrop (draws slot.2) slot.1.1 slot.1.2 drops) g.drops
      inventory := g.inventory.startingItems
      health := 20 }
  else { g with health := newamount }

end Game

/-! ### What the handlers do -/

namespace ChunkSystem

/-- A block set by the user, as an update of the world. -/
theorem blockat_setBlock_eq (cs : ChunkSystem) (spot : IVec3) (block : UInt32) :
    (cs.setBlock spot block true).blockat = Function.update cs.blockat spot block := by
  funext x
  rw [setBlock, blockat_setBlockNoSound_user, Function.update_apply]

/-- An edit of the user, as an update of the world. -/
theorem blockat_edit_eq (e : Entropy) (cs : ChunkSystem) (spot : IVec3) (block : UInt32) (neighbors automata : Bool) :
    (cs.setBlockAndQueueRerender e spot block neighbors true automata).blockat =
      Function.update cs.blockat spot block := by
  rw [(edited e cs spot block neighbors true automata).blockat, blockat_setBlock_eq]

/-- Asking for rebuilds leaves the world. -/
theorem blockat_foldl_queueRerenderWithKey (cs : ChunkSystem) (keys : List IVec2) (userPower light : Bool) :
    (keys.foldl (fun cs key => cs.queueRerenderWithKey key userPower light) cs).blockat = cs.blockat := by
  obtain ⟨user, background, h⟩ := (asked_foldl cs keys userPower light).eq
  rw [h]
  rfl

/-- The loop that fells a cactus takes away blocks of its kind, and no others. -/
theorem blockat_of_deleted {id : UInt32} (hid : id &&& Blocks.blockIdBits = id) {cs cs' : ChunkSystem}
    {stack stack' : List IVec3} {set set' : HashSet IVec2} {k : ℕ}
    (h : Loop.Ends (deleteRound id) k (stack, cs, set) (stack', cs', set'))
    (hstack : ∀ c ∈ stack, cs.blockat c &&& Blocks.blockIdBits = id) (c : IVec3) :
    cs'.blockat c = cs.blockat c ∨ cs'.blockat c = 0 ∧ cs.blockat c &&& Blocks.blockIdBits = id := by
  let I (s : List IVec3 × ChunkSystem × HashSet IVec2) : Prop :=
    (∀ c, s.2.1.blockat c = cs.blockat c ∨ s.2.1.blockat c = 0 ∧ cs.blockat c &&& Blocks.blockIdBits = id) ∧
      ∀ c ∈ s.1, cs.blockat c &&& Blocks.blockIdBits = id
  have hI : ∀ s s', I s → deleteRound id s = some s' → I s' := by
    rintro ⟨stack, cs₁, set⟩ s' ⟨hcells, hstack⟩ hround
    cases stack with
    | nil => cases hround
    | cons current stack =>
      obtain ⟨hcurrent, hrest⟩ := List.forall_mem_cons.mp hstack
      rw [deleteRound] at hround
      split at hround
      · cases hround
        have hset : ∀ c, (cs₁.setBlock current 0 true).blockat c = cs.blockat c ∨
            (cs₁.setBlock current 0 true).blockat c = 0 ∧ cs.blockat c &&& Blocks.blockIdBits = id := by
          intro c
          rw [blockat_setBlock_eq, Function.update_apply]
          split
          · next hc =>
            right
            rw [hc]
            exact ⟨rfl, hcurrent⟩
          · exact hcells c
        constructor
        · exact hset
        · apply foldl_induct (fun stack : List IVec3 => ∀ c ∈ stack, cs.blockat c &&& Blocks.blockIdBits = id)
          · intro stack neighbor _ hstack
            split
            · next hneighbor =>
              apply List.forall_mem_cons.mpr ⟨?_, hstack⟩
              rcases hset (neighbor + current) with hsame | ⟨-, hsame⟩
              · rw [← hsame, hneighbor, hid]
              · exact hsame
            · exact hstack
          · exact hrest
      · cases hround
        exact ⟨hcells, hrest⟩
  exact (h.induct (I := I) hI ⟨fun c => Or.inl rfl, hstack⟩).1 c

end ChunkSystem

namespace Game

/-! Eating and drawing the slots leave most of the state. -/

section

variable (slot : Slot) (g : Game)

@[simp] theorem csys_eat : (g.eat slot).csys = g.csys := by unfold eat; split <;> rfl
@[simp] theorem chestRegistry_eat : (g.eat slot).chestRegistry = g.chestRegistry := by unfold eat; split <;> rfl
@[simp] theorem currentChest_eat : (g.eat slot).currentChest = g.currentChest := by unfold eat; split <;> rfl
@[simp] theorem mouseSlot_eat : (g.eat slot).mouseSlot = g.mouseSlot := by unfold eat; split <;> rfl
@[simp] theorem drops_eat : (g.eat slot).drops = g.drops := by unfold eat; split <;> rfl

theorem inventory_eat : (g.eat slot).inventory =
    if Blocks.isFood slot.1 then g.inventory.useOne g.bumpedSlot slot else g.inventory := by unfold eat; split <;> rfl

@[simp] theorem csys_updateInventory : g.updateInventory.csys = g.csys := by unfold updateInventory; split <;> rfl
@[simp] theorem inventory_updateInventory : g.updateInventory.inventory = g.inventory := by
  unfold updateInventory; split <;> rfl
@[simp] theorem currentChest_updateInventory : g.updateInventory.currentChest = g.currentChest := by
  unfold updateInventory; split <;> rfl
@[simp] theorem mouseSlot_updateInventory : g.updateInventory.mouseSlot = g.mouseSlot := by
  unfold updateInventory; split <;> rfl
@[simp] theorem drops_updateInventory : g.updateInventory.drops = g.drops := by unfold updateInventory; split <;> rfl

/-- What a click that finds a slot does before the slots are drawn. -/
inductive Click (g : Game) : SlotIndexType → Game → Prop
  /-- A slot of the open chest. -/
  | chest {i : Fin (ROWLENGTH * 4)} {chest : ChestInventory} : g.chestRegistry.lookup g.currentChest = some chest →
      Click g (.ChestSlot i) { g with
        chestRegistry := g.chestRegistry.insert g.currentChest
          (chest.setSlot i (clickSlot (chest.inv.getD i (0, 0)) g.mouseSlot).1)
        mouseSlot := (clickSlot (chest.inv.getD i (0, 0)) g.mouseSlot).2.1 }
  /-- A slot of the inventory. -/
  | inv {i : Fin ROWLENGTH} : Click g (.InvSlot i) { g with
      inventory := g.inventory.setSlot i (clickSlot (g.inventory.inv.getD i (0, 0)) g.mouseSlot).1
      mouseSlot := (clickSlot (g.inventory.inv.getD i (0, 0)) g.mouseSlot).2.1 }

/-- A click does nothing, or finds a slot while a chest is open; then the slots may be drawn. -/
theorem mouseButton_cases (moused : SlotIndexType) (g : Game) : g.mouseButton moused = g ∨
    g.chestOpen = true ∧ ∃ clicked, g.Click moused clicked ∧
      (g.mouseButton moused = clicked ∨ g.mouseButton moused = clicked.updateInventory) := by
  unfold mouseButton
  split
  · next hopen =>
    cases moused with
    | ChestSlot i =>
      dsimp only
      split
      · next chest hlookup =>
        refine .inr ⟨hopen, _, .chest hlookup, ?_⟩
        split
        · exact .inr rfl
        · exact .inl rfl
      · exact .inl rfl
    | InvSlot i =>
      refine .inr ⟨hopen, _, .inv, ?_⟩
      dsimp only
      split
      · exact .inr rfl
      · exact .inl rfl
    | None => exact .inl rfl
  · exact .inl rfl

/-- Clicks leave the world. -/
@[simp] theorem csys_mouseButton (moused : SlotIndexType) : (g.mouseButton moused).csys = g.csys := by
  rcases mouseButton_cases moused g with hsame | ⟨-, clicked, hclick, hdone⟩
  · rw [hsame]
  · have hcsys : clicked.csys = g.csys := by cases hclick <;> rfl
    rcases hdone with hdone | hdone
    · rw [hdone, hcsys]
    · rw [hdone, csys_updateInventory, hcsys]

@[simp] theorem csys_takeDamage (draws : ℕ → UInt32) (amount : UInt8) : (g.takeDamage draws amount).csys = g.csys := by
  rw [takeDamage]
  split <;> rfl

@[simp] theorem chestRegistry_takeDamage (draws : ℕ → UInt32) (amount : UInt8) :
    (g.takeDamage draws amount).chestRegistry = g.chestRegistry := by
  rw [takeDamage]
  split <;> rfl

/-- Drawing the slots remembers the current chest as empty, if it was not opened before. -/
theorem lookup_updateInventory (spot : IVec3) : g.updateInventory.chestRegistry.lookup spot =
    if spot = g.currentChest ∧ g.chestRegistry.lookup spot = none then some ChestInventory.empty
    else g.chestRegistry.lookup spot := by
  rw [updateInventory]
  split
  · next chest h =>
    rw [if_neg]
    rintro ⟨rfl, hnone⟩
    rw [h] at hnone
    cases hnone
  · next h =>
    rw [HashMap.lookup_insert']
    by_cases hspot : spot = g.currentChest
    · subst hspot
      rw [if_pos rfl, if_pos ⟨rfl, h⟩]
    · rw [if_neg hspot, if_neg fun h => hspot h.1]

/-- Drawing the slots changes nothing where the current chest was opened before. -/
theorem updateInventory_of_lookup {g : Game} {chest : ChestInventory}
    (h : g.chestRegistry.lookup g.currentChest = some chest) : g.updateInventory = g := by
  rw [updateInventory, h]

/-- There is a chest where one has been remembered. -/
theorem lookup_updateInventory_cases {spot : IVec3} {chest : ChestInventory}
    (h : g.updateInventory.chestRegistry.lookup spot = some chest) :
    chest = ChestInventory.empty ∨ g.chestRegistry.lookup spot = some chest := by
  rw [lookup_updateInventory] at h
  split at h
  · cases h
    exact Or.inl rfl
  · exact Or.inr h

end

/-- The kind of the block in a cell. -/
def idAt (g : Game) (spot : IVec3) : UInt32 := g.csys.blockat spot &&& Blocks.blockIdBits

/-- The block that is hit is one that something is put against, and the selected slot holds
something. -/
structure Puts (g : Game) (blockHit : IVec3) : Prop where
  /-- The block that is hit is not used in another way. -/
  hit : g.idAt blockHit ≠ 19 ∧ g.idAt blockHit ≠ 21 ∧ g.idAt blockHit ≠ 31
  /-- The slot holds something. -/
  selected : g.selected.1 ≠ 0 ∧ 0 < g.selected.2

/-- There is room for a block, and the player does not stand there. -/
structure Free (g : Game) (aim : Aim) (placePoint : IVec3) : Prop where
  /-- There is air or water. -/
  overwritable : Blocks.isOverwritable (g.idAt placePoint) = true
  /-- It is not the cell of the camera or the one below. -/
  camera : placePoint ≠ aim.camblockspot ∧ placePoint ≠ aim.camblockspot - ⟨0, 1, 0⟩

/-- What the place ray can do. -/
inductive PlaceRay (g : Game) (e : ℕ → Entropy) (aim : Aim) : Game → Prop
  /-- Nothing is hit. -/
  | air : aim.blockHit = none → PlaceRay g e aim (g.eat g.selected)
  /-- A door is toggled. -/
  | door {blockHit : IVec3} : aim.blockHit = some blockHit → g.idAt blockHit = 19 →
      PlaceRay g e aim (eat g.selected { g with
        csys := (g.csys.setBlock (DoorInfo.otherHalf blockHit (g.csys.blockat blockHit)) (DoorInfo.toggleDoorOpenBit
            (g.csys.blockat (DoorInfo.otherHalf blockHit (g.csys.blockat blockHit)))) true).setBlockAndQueueRerender (e 0)
          blockHit (DoorInfo.toggleDoorOpenBit (g.csys.blockat blockHit)) true true true })
  /-- A chest is opened. -/
  | chest {blockHit : IVec3} : aim.blockHit = some blockHit → g.idAt blockHit = 21 →
      PlaceRay g e aim { (eat g.selected { g with currentChest := blockHit }).updateInventory with chestOpen := true }
  /-- A table is used, or nothing is put against the block. -/
  | idle {blockHit : IVec3} : aim.blockHit = some blockHit → ¬ g.Puts blockHit → PlaceRay g e aim (g.eat g.selected)
  /-- The block has no place. -/
  | blocked {blockHit : IVec3} : aim.blockHit = some blockHit → g.Puts blockHit →
      ¬ g.Free aim (blockHit + aim.hitNormal.offset) → PlaceRay g e aim g
  /-- The block is put against the one that is hit. -/
  | placed {blockHit : IVec3} : aim.blockHit = some blockHit → g.Puts blockHit →
      g.Free aim (blockHit + aim.hitNormal.offset) →
      PlaceRay g e aim (eat g.selected { g with
        csys := g.csys.placeBlock e aim.direction (blockHit + aim.hitNormal.offset) g.selected.1
        inventory := if ¬ Blocks.isNonPlaceable g.selected.1 then g.inventory.useOne g.bumpedSlot g.selected
          else g.inventory })

/-- The place ray does one of these. -/
theorem castPlaceRay_spec (e : ℕ → Entropy) (aim : Aim) (g : Game) : PlaceRay g e aim (g.castPlaceRay e aim) := by
  rw [castPlaceRay]
  cases hhit : aim.blockHit with
  | none => exact .air hhit
  | some blockHit =>
    simp only [useHit]
    by_cases hdoor : g.csys.blockat blockHit &&& Blocks.blockIdBits = 19
    · rw [if_pos hdoor]
      exact .door hhit hdoor
    rw [if_neg hdoor]
    by_cases hchest : g.csys.blockat blockHit &&& Blocks.blockIdBits = 21
    · rw [if_pos hchest]
      exact .chest hhit hchest
    rw [if_neg hchest]
    by_cases htable : g.csys.blockat blockHit &&& Blocks.blockIdBits = 31
    · rw [if_pos htable]
      exact .idle hhit fun h => h.hit.2.2 htable
    rw [if_neg htable]
    by_cases hslot : g.selected.1 ≠ 0 ∧ 0 < g.selected.2
    · have hputs : g.Puts blockHit := ⟨⟨hdoor, hchest, htable⟩, hslot⟩
      rw [if_pos hslot]
      by_cases hover : Blocks.isOverwritable
          (g.csys.blockat (blockHit + aim.hitNormal.offset) &&& Blocks.blockIdBits) = true
      · rw [if_neg (not_not_intro hover)]
        by_cases hcamera : blockHit + aim.hitNormal.offset = aim.camblockspot ∨
            blockHit + aim.hitNormal.offset = aim.camblockspot - ⟨0, 1, 0⟩
        · rw [if_pos hcamera]
          exact .blocked hhit hputs fun h => hcamera.elim h.camera.1 h.camera.2
        · rw [if_neg hcamera]
          exact .placed hhit hputs ⟨hover, not_or.mp hcamera⟩
      · rw [if_pos hover]
        exact .blocked hhit hputs fun h => hover h.overwritable
    · rw [if_neg hslot]
      exact .idle hhit fun h => hslot h.selected

end Game

/-! ### Runs -/

/-- What can happen to a game. -/
inductive Event where
  /-- Use what is hit, place a block, eat. -/
  | castPlaceRay (e : ℕ → Entropy) (aim : Aim)
  /-- Break what is hit. -/
  | castBreakRay (e : ℕ → Entropy) (draw : UInt32) (aim : Aim)
  /-- Click on a slot. -/
  | mouseButton (moused : SlotIndexType)
  /-- Close the chest. -/
  | exitMenu
  /-- Select another slot. -/
  | scroll (invrowchange : ℤ)
  /-- Draw the slots anew. -/
  | updateInventory
  /-- Pick up what is close. -/
  | updateDrops (near : ℕ → Bool)
  /-- Craft once. -/
  | craftOne (recipe : Recipe)
  /-- Craft as often as possible. -/
  | craftAll (recipe : Recipe)
  /-- Get hurt. -/
  | takeDamage (draws : ℕ → UInt32) (amount : UInt8)

namespace Game

/-- An event leads from one state to another. -/
def Happens (g : Game) (event : Event) (g' : Game) : Prop :=
  match event with
  | .castPlaceRay e aim => g' = g.castPlaceRay e aim
  | .castBreakRay e draw aim => g.CastBreakRay e draw aim g'
  | .mouseButton moused => g' = g.mouseButton moused
  | .exitMenu => g' = { g with chestOpen := false }
  | .scroll invrowchange => g' = g.scroll invrowchange
  | .updateInventory => g' = g.updateInventory
  | .updateDrops near => g' = g.updateDrops near
  | .craftOne recipe => recipe ∈ RECIPES ∧ g' = { g with inventory := recipe.craftOne g.inventory }
  | .craftAll recipe => recipe ∈ RECIPES ∧ ∃ inv, recipe.CraftsAll g.inventory inv ∧ g' = { g with inventory := inv }
  | .takeDamage draws amount => g' = g.takeDamage draws amount

end Game

end Distgard
