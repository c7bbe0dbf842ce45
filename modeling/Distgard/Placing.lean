import Distgard.Items

/-!
# What placing a block costs

The place ray has a branch for every block that is special, each with checks of its own, and one
piece of code after all of them that takes the block out of the slot. That code asks only whether
the item is a block at all. A door has checks that the others lack: it needs air above and
something below. Where it has no room, no door is set, and one is taken out of the slot.

## The model

`placements` lists the blocks that a ray sets when it places something, in order;
`blockat_placeBlock` says that these are what becomes of the world.

## What is proved

* `castPlaceRay_consumes_iff` — a ray takes one out of the slot exactly when it sets the block,
  unless a door is placed where it has no room.
* `castPlaceRay_losesDoor` — a door placed in the air is gone.
-/

namespace Distgard

open Lib

namespace ChunkSystem

variable (e : ℕ → Entropy)

/-- The blocks that hanging the leaf of a door beside a new one sets. -/
def pairWrites (direction : UInt32) (neigh : IVec3) (blockbits : UInt32) (cs : ChunkSystem) : List (IVec3 × UInt32) :=
  if blockbits &&& Blocks.blockIdBits = 19 ∧ Blocks.getDirectionBits blockbits = direction ∧
      DoorInfo.getDoorTopBit blockbits = 0 then
    [(neigh, DoorInfo.setOppositeDoorBits 0 blockbits),
      (neigh + ⟨0, 1, 0⟩, DoorInfo.setOppositeDoorBits 0 (cs.blockat (neigh + ⟨0, 1, 0⟩)))]
  else []

/-- A door has room: there is air above, and something below. -/
def DoorFits (placePoint : IVec3) (cs : ChunkSystem) : Prop :=
  cs.blockat (placePoint + ⟨0, 1, 0⟩) = 0 ∧ cs.blockat (placePoint + ⟨0, -1, 0⟩) ≠ 0

instance (placePoint : IVec3) (cs : ChunkSystem) : Decidable (DoorFits placePoint cs) :=
  inferInstanceAs (Decidable (_ ∧ _))

/-- The blocks that putting a door somewhere sets: those beside it, and its two halves. -/
def doorWrites (direction : Fin 4) (placePoint : IVec3) (cs : ChunkSystem) : List (IVec3 × UInt32) :=
  if DoorFits placePoint cs then
    let dir := UInt32.ofNat direction
    let along := direction.val = 0 ∨ direction.val = 1
    let left := if along then placePoint - neighborAxes direction else placePoint + neighborAxes direction
    let right := if along then placePoint + neighborAxes direction else placePoint - neighborAxes direction
    let start := (cs, Blocks.setDirectionBits dir 19, Blocks.setDirectionBits dir (19 ||| DoorInfo.DOORTOP_BITS))
    let s := pairDoor e 0 dir right (cs.blockat right) start
    let s' := pairDoor e 2 dir left (cs.blockat left) s
    pairWrites dir right (cs.blockat right) cs ++ pairWrites dir left (cs.blockat left) s.1 ++
      [(placePoint, s'.2.1), (placePoint + ⟨0, 1, 0⟩, s'.2.2)]
  else []

/-- The blocks that putting a block somewhere sets. -/
def placeWrites (direction : Fin 4) (placePoint : IVec3) (id : UInt32) (cs : ChunkSystem) : List (IVec3 × UInt32) :=
  if id = 19 then doorWrites e direction placePoint cs
  else if id = 45 ∨ id = 20 ∨ id = 21 then [(placePoint, Blocks.setDirectionBits (UInt32.ofNat direction) id)]
  else if ¬ Blocks.isNonPlaceable id then [(placePoint, id)]
  else []

/-- The world with some blocks set, one after the other. -/
def written (writes : List (IVec3 × UInt32)) (world : IVec3 → UInt32) : IVec3 → UInt32 :=
  writes.foldl (fun world b => Function.update world b.1 b.2) world

theorem written_append (l l' : List (IVec3 × UInt32)) (world : IVec3 → UInt32) :
    written (l ++ l') world = written l' (written l world) := List.foldl_append

variable {e}

theorem blockat_pairDoor (i : ℕ) (direction : UInt32) {neigh : IVec3} {blockbits : UInt32}
    (s : ChunkSystem × UInt32 × UInt32) :
    (pairDoor e i direction neigh blockbits s).1.blockat =
      written (pairWrites direction neigh blockbits s.1) s.1.blockat := by
  rw [pairDoor, pairWrites]
  split
  · rw [blockat_edit_eq, blockat_edit_eq]
    rfl
  · rfl

/-- **The blocks listed** are what becomes of the world. -/
theorem blockat_placeBlock (direction : Fin 4) (placePoint : IVec3) (id : UInt32) (cs : ChunkSystem) :
    (placeBlock e direction placePoint id cs).blockat =
      written (placeWrites e direction placePoint id cs) cs.blockat := by
  rw [placeBlock, placeWrites]
  split
  · rw [placeDoor, doorWrites]
    by_cases hroom : cs.blockat (placePoint + ⟨0, 1, 0⟩) = 0 ∧ cs.blockat (placePoint + ⟨0, -1, 0⟩) ≠ 0
    · have hval : ∀ n : Fin 4, direction.val = n.val ↔ direction = n := fun _ => Fin.ext_iff.symm
      have halong : ∀ a b : IVec3, (if direction.val = 0 ∨ direction.val = 1 then a else b) =
          if direction = 0 ∨ direction = 1 then a else b :=
        fun _ _ => if_congr (or_congr (hval 0) (hval 1)) rfl rfl
      rw [if_pos hroom, if_pos (show DoorFits placePoint cs from hroom)]
      simp only [written_append, halong]
      rw [blockat_edit_eq, blockat_edit_eq, blockat_pairDoor, blockat_pairDoor]
      rfl
    · rw [if_neg hroom, if_neg (show ¬ DoorFits placePoint cs from hroom)]
      rfl
  · split
    · rw [blockat_edit_eq]
      rfl
    · split
      · rw [blockat_edit_eq]
        rfl
      · rfl

/-- Where nothing is set, nothing at all happens. -/
theorem placeBlock_of_nil {direction : Fin 4} {placePoint : IVec3} {id : UInt32} {cs : ChunkSystem}
    (h : placeWrites e direction placePoint id cs = []) : placeBlock e direction placePoint id cs = cs := by
  rw [placeWrites] at h
  rw [placeBlock]
  split
  · next hid =>
    rw [if_pos hid, doorWrites] at h
    rw [placeDoor]
    by_cases hroom : DoorFits placePoint cs
    · rw [if_pos hroom] at h
      exact absurd h (by simp)
    · exact if_neg hroom
  · next hid =>
    rw [if_neg hid] at h
    split
    · next hdir =>
      rw [if_pos hdir] at h
      cases h
    · next hdir =>
      rw [if_neg hdir] at h
      split
      · next hplace =>
        rw [if_pos hplace] at h
        cases h
      · rfl

/-- Hanging the leaf of a new door leaves its kind. -/
theorem id_pairDoor_new (i : ℕ) (direction : UInt32) {neigh : IVec3} {blockbits : UInt32}
    (s : ChunkSystem × UInt32 × UInt32) :
    (pairDoor e i direction neigh blockbits s).2.1 &&& Blocks.blockIdBits = s.2.1 &&& Blocks.blockIdBits := by
  rw [pairDoor]
  split
  · exact DoorInfo.setOpposite_and (by decide) (by decide) _
  · rfl

/-- A direction leaves the kind of a block. -/
theorem id_setDirectionBits (direction : Fin 4) (id : UInt32) :
    Blocks.setDirectionBits (UInt32.ofNat direction) id &&& Blocks.blockIdBits = id &&& Blocks.blockIdBits := by
  apply Bits.or_and_of_disjoint
  revert direction
  decide

/-- A placeable block is set in its place, unless it is a door without room; then nothing is. -/
theorem placeWrites_spec (direction : Fin 4) (placePoint : IVec3) {id : UInt32} (cs : ChunkSystem)
    (hid : ¬ Blocks.isNonPlaceable id = true) :
    if id = 19 ∧ ¬ DoorFits placePoint cs then placeWrites e direction placePoint id cs = []
    else ∃ word, (placePoint, word) ∈ placeWrites e direction placePoint id cs ∧
      word &&& Blocks.blockIdBits = id &&& Blocks.blockIdBits := by
  rw [placeWrites]
  by_cases hdoor : id = 19
  · subst hdoor
    rw [if_pos rfl, doorWrites]
    by_cases hroom : DoorFits placePoint cs
    · rw [if_neg (by simp [hroom]), if_pos hroom]
      refine ⟨_, List.mem_append_right _ (List.mem_cons_self ..), ?_⟩
      rw [id_pairDoor_new, id_pairDoor_new, id_setDirectionBits]
    · rw [if_pos ⟨rfl, hroom⟩, if_neg hroom]
  · rw [if_neg (fun h => hdoor h.1), if_neg hdoor]
    by_cases hdir : id = 45 ∨ id = 20 ∨ id = 21
    · rw [if_pos hdir]
      exact ⟨_, List.mem_singleton.mpr rfl, id_setDirectionBits direction id⟩
    · rw [if_neg hdir, if_pos hid]
      exact ⟨id, List.mem_singleton.mpr rfl, rfl⟩

end ChunkSystem

namespace Game

variable (e : ℕ → Entropy) (aim : Aim) (g : Game)

instance (blockHit : IVec3) : Decidable (g.Puts blockHit) :=
  decidable_of_iff ((g.idAt blockHit ≠ 19 ∧ g.idAt blockHit ≠ 21 ∧ g.idAt blockHit ≠ 31) ∧
    g.selected.1 ≠ 0 ∧ 0 < g.selected.2) ⟨fun h => ⟨h.1, h.2⟩, fun h => ⟨h.hit, h.selected⟩⟩

instance (placePoint : IVec3) : Decidable (g.Free aim placePoint) :=
  decidable_of_iff (Blocks.isOverwritable (g.idAt placePoint) = true ∧
    placePoint ≠ aim.camblockspot ∧ placePoint ≠ aim.camblockspot - ⟨0, 1, 0⟩)
    ⟨fun h => ⟨h.1, h.2⟩, fun h => ⟨h.overwritable, h.camera⟩⟩

/-- The blocks that a ray sets to place what the selected slot holds. -/
def placements : List (IVec3 × UInt32) :=
  match aim.blockHit with
  | none => []
  | some blockHit =>
    if g.Puts blockHit ∧ g.Free aim (blockHit + aim.hitNormal.offset) then
      g.csys.placeWrites e aim.direction (blockHit + aim.hitNormal.offset) g.selected.1
    else []

/-- The ray sets the block that the selected slot holds, next to the block it hits. -/
def Placed : Prop := ∃ blockHit, aim.blockHit = some blockHit ∧
  ∃ word, (blockHit + aim.hitNormal.offset, word) ∈ g.placements e aim ∧
    word &&& Blocks.blockIdBits = g.selected.1 &&& Blocks.blockIdBits

/-- The selected slot holds one less than before, and the others what they held. -/
def Decremented (g g' : Game) : Prop :=
  g'.selected.2.toNat + 1 = g.selected.2.toNat ∧ ∀ i : Fin ROWLENGTH, i ≠ g.bumpedSlot →
    g'.inventory.inv[(i : ℕ)]? = g.inventory.inv[(i : ℕ)]?

/-- A door is put where it has no room. -/
def DoorHasNoRoom : Prop := ∃ blockHit, aim.blockHit = some blockHit ∧ g.Puts blockHit ∧
  g.Free aim (blockHit + aim.hitNormal.offset) ∧ g.selected.1 = 19 ∧
  ¬ g.csys.DoorFits (blockHit + aim.hitNormal.offset)

variable {e aim g}

/-- What cannot be placed can be eaten at most. -/
theorem eat_of_placeable {slot : Slot} (h : ¬ Blocks.isNonPlaceable slot.1 = true) : g.eat slot = g := by
  rw [eat, if_neg]
  intro hfood
  apply h
  simp only [Blocks.isFood, Blocks.isNonPlaceable, List.contains_cons, List.contains_nil, Bool.or_false, Bool.or_eq_true,
    beq_iff_eq] at hfood ⊢
  rcases hfood with hfood | hfood
  · exact .inl hfood
  · exact .inr (.inl hfood)

/-- Using one of what the selected slot holds is having one less. -/
theorem decremented_useOne (cs : ChunkSystem) (hpos : 0 < g.selected.2) :
    Decremented g { g with csys := cs, inventory := g.inventory.useOne g.bumpedSlot g.selected } := by
  have hslots : (g.inventory.useOne g.bumpedSlot g.selected).inv = g.inventory.inv.set g.bumpedSlot
      (if g.selected.2 = 1 then (0, 0) else (g.selected.1, g.selected.2 - 1)) := by
    rw [Inventory.useOne]
    split <;> rfl
  have hcount : (if g.selected.2 = 1 then ((0, 0) : Slot) else (g.selected.1, g.selected.2 - 1)).2.toNat + 1 =
      g.selected.2.toNat := by
    split
    · next h => rw [h]; rfl
    · have hone : (1 : UInt32) ≤ g.selected.2 := UInt32.le_iff_toNat_le.mpr (UInt32.lt_iff_toNat_lt.mp hpos)
      rw [UInt32.toNat_sub_of_le _ _ hone]
      exact Nat.sub_add_cancel (UInt32.le_iff_toNat_le.mp hone)
  constructor
  · rw [← hcount, selected]
    simp only [hslots]
    rw [List.getD_eq_getElem?_getD, List.getElem?_set_self (g.inventory.lt_length_inv g.bumpedSlot)]
    rfl
  · intro i hi
    simp only [hslots]
    exact List.getElem?_set_ne fun h => hi (Fin.ext h.symm)

/-- Without a change of the slots nothing is taken out. -/
theorem not_decremented {g' : Game} (hinv : g'.inventory = g.inventory) (hslot : g'.bumpedSlot = g.bumpedSlot) :
    ¬ Decremented g g' := by
  rintro ⟨hcount, -⟩
  rw [selected, selected, hinv, hslot] at hcount
  exact Nat.succ_ne_self _ hcount

/-- A ray that places nothing sets no block. -/
theorem not_placed (h : ∀ blockHit, aim.blockHit = some blockHit →
    ¬ (g.Puts blockHit ∧ g.Free aim (blockHit + aim.hitNormal.offset))) : ¬ g.Placed e aim := by
  rintro ⟨blockHit, hhit, word, hword, -⟩
  rw [placements, hhit] at hword
  simp only [h blockHit hhit, if_false, List.not_mem_nil] at hword

/-- A ray that has a place for its block places it and takes one out of the slot. -/
theorem castPlaceRay_of_free {blockHit : IVec3} (hhit : aim.blockHit = some blockHit) (hputs : g.Puts blockHit)
    (hfree : g.Free aim (blockHit + aim.hitNormal.offset))
    (hplaceable : ¬ Blocks.isNonPlaceable g.selected.1 = true) :
    g.castPlaceRay e aim = { g with
      csys := g.csys.placeBlock e aim.direction (blockHit + aim.hitNormal.offset) g.selected.1
      inventory := g.inventory.useOne g.bumpedSlot g.selected } := by
  have hhit' : ∀ {b : IVec3}, aim.blockHit = some b → b = blockHit := fun h => Option.some.inj (h.symm.trans hhit)
  have hray := g.castPlaceRay_spec e aim
  generalize g.castPlaceRay e aim = g' at hray ⊢
  cases hray with
  | air hair => rw [hhit] at hair; cases hair
  | door hb hdoor => exact absurd (hhit' hb ▸ hdoor) hputs.hit.1
  | chest hb hchest => exact absurd (hhit' hb ▸ hchest) hputs.hit.2.1
  | idle hb hidle => exact absurd (hhit' hb ▸ hputs) hidle
  | blocked hb _ hblocked => exact absurd (hhit' hb ▸ hfree) hblocked
  | placed hb _ _ =>
    rw [eat_of_placeable hplaceable, if_pos hplaceable, hhit' hb]

/-- The blocks that such a ray sets. -/
theorem placements_of_free {blockHit : IVec3} (hhit : aim.blockHit = some blockHit) (hputs : g.Puts blockHit)
    (hfree : g.Free aim (blockHit + aim.hitNormal.offset)) : g.placements e aim =
      g.csys.placeWrites e aim.direction (blockHit + aim.hitNormal.offset) g.selected.1 := by
  rw [placements, hhit]
  exact if_pos ⟨hputs, hfree⟩

/-- Where a ray places nothing, the slots are left alone. -/
theorem slots_of_not_free (hplaceable : ¬ Blocks.isNonPlaceable g.selected.1 = true)
    (hnot : ∀ blockHit, aim.blockHit = some blockHit →
      ¬ (g.Puts blockHit ∧ g.Free aim (blockHit + aim.hitNormal.offset))) :
    (g.castPlaceRay e aim).inventory = g.inventory ∧ (g.castPlaceRay e aim).bumpedSlot = g.bumpedSlot := by
  have hray := g.castPlaceRay_spec e aim
  generalize g.castPlaceRay e aim = g' at hray ⊢
  cases hray with
  | air _ => rw [eat_of_placeable hplaceable]; exact ⟨rfl, rfl⟩
  | door _ _ => rw [eat_of_placeable hplaceable]; exact ⟨rfl, rfl⟩
  | chest _ _ =>
    rw [eat_of_placeable hplaceable]
    refine ⟨inventory_updateInventory _, ?_⟩
    unfold updateInventory
    dsimp only
    split <;> rfl
  | idle _ _ => rw [eat_of_placeable hplaceable]; exact ⟨rfl, rfl⟩
  | blocked _ _ _ => exact ⟨rfl, rfl⟩
  | placed hhit hputs hfree => exact absurd ⟨hputs, hfree⟩ (hnot _ hhit)

/-- **Placing costs one** exactly when a block is placed: for every slot with an item that can
be placed, a ray takes one out of the slot if and only if it sets the block, unless a door is put
where it has no room. -/
theorem castPlaceRay_consumes_iff (e : ℕ → Entropy) (aim : Aim) (g : Game)
    (hplaceable : ¬ Blocks.isNonPlaceable g.selected.1 = true) :
    (Decremented g (g.castPlaceRay e aim) ↔ g.Placed e aim) ↔ ¬ g.DoorHasNoRoom aim := by
  by_cases hplaces : ∃ blockHit, aim.blockHit = some blockHit ∧ g.Puts blockHit ∧
      g.Free aim (blockHit + aim.hitNormal.offset)
  · obtain ⟨blockHit, hhit, hputs, hfree⟩ := hplaces
    have hhit' : ∀ {b : IVec3}, aim.blockHit = some b → b = blockHit := fun h => Option.some.inj (h.symm.trans hhit)
    rw [castPlaceRay_of_free hhit hputs hfree hplaceable, iff_true_left (decremented_useOne _ hputs.selected.2)]
    have hspec := ChunkSystem.placeWrites_spec (e := e) aim.direction (blockHit + aim.hitNormal.offset) g.csys hplaceable
    rw [← placements_of_free hhit hputs hfree] at hspec
    by_cases hroom : g.selected.1 = 19 ∧ ¬ g.csys.DoorFits (blockHit + aim.hitNormal.offset)
    · rw [if_pos hroom] at hspec
      apply iff_of_false
      · rintro ⟨_, -, word, hword, -⟩
        rw [hspec] at hword
        cases hword
      · exact not_not_intro ⟨blockHit, hhit, hputs, hfree, hroom⟩
    · rw [if_neg hroom] at hspec
      apply iff_of_true
      · exact ⟨blockHit, hhit, hspec⟩
      · rintro ⟨b, hb, -, -, hdoor⟩
        exact hroom (hhit' hb ▸ hdoor)
  · have hnot : ∀ blockHit, aim.blockHit = some blockHit →
        ¬ (g.Puts blockHit ∧ g.Free aim (blockHit + aim.hitNormal.offset)) := fun b hb h => hplaces ⟨b, hb, h⟩
    obtain ⟨hinv, hslot⟩ := slots_of_not_free (e := e) hplaceable hnot
    apply iff_of_true
    · exact iff_of_false (not_decremented hinv hslot) (not_placed hnot)
    · rintro ⟨blockHit, hhit, hputs, hfree, -⟩
      exact hplaces ⟨blockHit, hhit, hputs, hfree⟩

/-- A stone in a world of air, and a player with two of an item in the hand. -/
def holding (id : UInt32) : Game :=
  { newGame with
    csys := ChunkSystem.barren.setBlock ⟨0, 0, 0⟩ 1 true
    inventory := ⟨true, [(31, 1), (49, 10), (id, 2), (0, 0), (0, 0), (0, 0), (0, 0), (0, 0)], rfl⟩ }

/-- A stone put on the stone costs one. -/
theorem castPlaceRay_consumes_stone :
    Decremented (holding 1) ((holding 1).castPlaceRay (fun _ => .plain) fromAbove) ↔
      (holding 1).Placed (fun _ => .plain) fromAbove := by
  apply (castPlaceRay_consumes_iff (fun _ => .plain) fromAbove (holding 1) (by decide)).mpr
  rintro ⟨_, -, -, -, hdoor, -⟩
  exact absurd hdoor (by decide)

/-- The stone is hit at its side. -/
def fromTheSide : Aim := ⟨some ⟨0, 0, 0⟩, .RIGHT, ⟨9, 9, 9⟩, fromAbove.direction⟩

/-- **A door is lost** when it is put in the air: it is taken out of the slot, and no door is set. -/
theorem castPlaceRay_losesDoor :
    ¬ Blocks.isNonPlaceable (holding 19).selected.1 = true ∧
      Decremented (holding 19) ((holding 19).castPlaceRay (fun _ => .plain) fromTheSide) ∧
      ((holding 19).castPlaceRay (fun _ => .plain) fromTheSide).csys = (holding 19).csys ∧
      ¬ (holding 19).Placed (fun _ => .plain) fromTheSide := by
  have hblocks : ∀ c, (holding 19).csys.blockat c = if c = ⟨0, 0, 0⟩ then 1 else 0 := by
    intro c
    show (ChunkSystem.barren.setBlock ⟨0, 0, 0⟩ 1 true).blockat c = _
    rw [ChunkSystem.blockat_setBlock_eq, Function.update_apply]
    rfl
  have hplaceable : ¬ Blocks.isNonPlaceable (holding 19).selected.1 = true := by decide
  have hputs : (holding 19).Puts ⟨0, 0, 0⟩ := by
    refine ⟨?_, by decide⟩
    rw [idAt, hblocks]
    decide
  have hfree : (holding 19).Free fromTheSide (⟨0, 0, 0⟩ + fromTheSide.hitNormal.offset) := by
    refine ⟨?_, by decide⟩
    rw [idAt, hblocks]
    decide
  have hroom : ¬ (holding 19).csys.DoorFits (⟨0, 0, 0⟩ + fromTheSide.hitNormal.offset) := by
    rintro ⟨-, hbelow⟩
    rw [hblocks] at hbelow
    exact hbelow (by decide)
  have hnil : (holding 19).csys.placeWrites (fun _ => .plain) fromTheSide.direction
      (⟨0, 0, 0⟩ + fromTheSide.hitNormal.offset) (holding 19).selected.1 = [] := by
    have hspec := ChunkSystem.placeWrites_spec (e := fun _ => .plain) fromTheSide.direction
      (⟨0, 0, 0⟩ + fromTheSide.hitNormal.offset) (holding 19).csys hplaceable
    rw [if_pos ⟨by decide, hroom⟩] at hspec
    exact hspec
  rw [castPlaceRay_of_free rfl hputs hfree hplaceable]
  refine ⟨hplaceable, decremented_useOne _ (by decide), ChunkSystem.placeBlock_of_nil hnil, ?_⟩
  rintro ⟨blockHit, hhit, word, hword, -⟩
  rw [placements_of_free rfl hputs hfree, hnil] at hword
  cases hword

end Game

end Distgard
