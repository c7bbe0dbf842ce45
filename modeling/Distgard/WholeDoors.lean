import Distgard.Items

/-!
# The doors of a game

A run starts in a world without doors, with items of plain kinds: their words carry no flags.
The place ray puts doors and toggles them, the break ray takes them away, and both halves of a
door change together. Items keep their plain kinds, so that no half of a door is put alone.

## What is proved

* `doors_whole` — every door is whole; a toggle opens or closes both halves; a break takes both
  away.
-/

namespace Distgard

open Lib DoorInfo

/-- The item's word is the identifier of a kind, without flags. -/
def Slot.Plain (slot : Slot) : Prop := slot.1 &&& Blocks.blockIdBits = slot.1

/-- All events keep the kinds of items plain. -/
theorem slotRule_plain : SlotRule Slot.Plain False where
  empty := rfl
  useOne := fun _ _ h _ _ => h
  put := fun _ _ _ _ h _ _ _ => h
  starting := by
    simp only [STARTINGITEMS, Slot.Plain, List.forall_mem_cons, List.not_mem_nil, false_implies, implies_true]
    decide
  result := by unfold Slot.Plain; decide
  block := by
    intro word _
    rw [Slot.Plain, UInt32.and_assoc, UInt32.and_self]
  apple := by
    intro _ _
    show (32 : UInt32) &&& Blocks.blockIdBits = 32
    decide
  clean := fun h => h.elim

namespace ChunkSystem

variable {cs : ChunkSystem} {e : ℕ → Entropy}

/-- The lower half of a new door. -/
structure NewDoor (bottomId topId : UInt32) : Prop where
  /-- It is the lower half. -/
  bottom : getDoorTopBit bottomId = 0
  /-- It differs from the upper half in that only. -/
  top : topId = bottomId ^^^ DOORTOP_BITS

theorem NewDoor.setOpposite {bottomId topId : UInt32} (h : NewDoor bottomId topId) :
    NewDoor (setOppositeDoorBits 1 bottomId) (setOppositeDoorBits 1 topId) where
  bottom := by rw [topBit_setOpposite (by decide), h.bottom]
  top := by rw [h.top, setOpposite_xor_top (by decide)]

theorem newDoor_direction (direction : Fin 4) : NewDoor (Blocks.setDirectionBits (UInt32.ofNat direction) 19)
    (Blocks.setDirectionBits (UInt32.ofNat direction) (19 ||| DOORTOP_BITS)) where
  bottom := by revert direction; decide
  top := by revert direction; decide

/-- A door beside a new one stays whole, and so does the new one. Only the cells of the door
beside it change. -/
theorem pairDoor_spec (hw : Whole cs.blockat) (i : ℕ) (direction : UInt32) (neigh : IVec3) {bottomId topId : UInt32}
    (hnew : NewDoor bottomId topId) :
    let s := pairDoor e i direction neigh (cs.blockat neigh) (cs, bottomId, topId)
    Whole s.1.blockat ∧ NewDoor s.2.1 s.2.2 ∧
      ∀ c, c ≠ neigh → c ≠ neigh + ⟨0, 1, 0⟩ → s.1.blockat c = cs.blockat c := by
  rw [pairDoor]
  split
  · next hdoor =>
    obtain ⟨hid, -, htop⟩ := hdoor
    have hup : otherHalf neigh (cs.blockat neigh) = neigh + ⟨0, 1, 0⟩ := by
      rw [otherHalf, htop]
      rfl
    have hne : neigh ≠ neigh + ⟨0, 1, 0⟩ := by
      rw [← hup]
      exact (otherHalf_ne neigh _).symm
    have hother := hw neigh hid
    rw [hup] at hother
    refine ⟨?_, hnew.setOpposite, ?_⟩
    · apply hw.replace hid (setOppositeDoorBits 0 (cs.blockat neigh))
        (setOppositeDoorBits 0 (cs.blockat neigh) ^^^ DOORTOP_BITS)
      · rw [blockat_edit_eq, blockat_edit_eq, Function.update_of_ne hne, Function.update_self]
      · rw [blockat_edit_eq, hup, Function.update_self, hother, setOpposite_xor_top (by decide)]
      · intro c hc hc'
        rw [hup] at hc'
        rw [blockat_edit_eq, blockat_edit_eq, Function.update_of_ne hc', Function.update_of_ne hc]
      · right
        exact ⟨topBit_setOpposite (by decide) _, rfl⟩
    · intro c hc hc'
      rw [blockat_edit_eq, blockat_edit_eq, Function.update_of_ne hc', Function.update_of_ne hc]
  · exact ⟨hw, hnew, fun _ _ _ => rfl⟩

/-- Another cell of the same height. -/
structure Beside (spot other : IVec3) : Prop where
  /-- It is another cell. -/
  ne : other ≠ spot
  /-- It has the same height. -/
  height : other.y = spot.y

/-- The cells of a door are not those of a door beside it. -/
theorem Beside.cells {spot other : IVec3} (h : Beside spot other) :
    spot ≠ other ∧ spot ≠ other + ⟨0, 1, 0⟩ ∧ spot + ⟨0, 1, 0⟩ ≠ other ∧ spot + ⟨0, 1, 0⟩ ≠ other + ⟨0, 1, 0⟩ := by
  have hy := h.height
  refine ⟨h.ne.symm, ?_, ?_, ?_⟩
  · intro he
    have := congrArg IVec3.y he
    rw [IVec3.add_y] at this
    simp only at this
    omega
  · intro he
    have := congrArg IVec3.y he
    rw [IVec3.add_y] at this
    simp only at this
    omega
  · intro he
    apply h.ne
    have hx := congrArg IVec3.x he
    have hz := congrArg IVec3.z he
    rw [IVec3.add_x, IVec3.add_x] at hx
    rw [IVec3.add_z, IVec3.add_z] at hz
    ext
    · simp only at hx
      omega
    · exact hy
    · simp only at hz
      omega

theorem beside_axes (direction : Fin 4) (spot : IVec3) :
    Beside spot (spot + neighborAxes direction) ∧ Beside spot (spot - neighborAxes direction) ∧
      Beside (spot + neighborAxes direction) (spot - neighborAxes direction) := by
  have haxes : (neighborAxes direction).y = 0 ∧ ((neighborAxes direction).x = 1 ∨ (neighborAxes direction).z = 1) := by
    revert direction
    decide
  obtain ⟨hy, hxz⟩ := haxes
  refine ⟨⟨?_, ?_⟩, ⟨?_, ?_⟩, ⟨?_, ?_⟩⟩
  · intro he
    have hx := congrArg IVec3.x he
    have hz := congrArg IVec3.z he
    rw [IVec3.add_x] at hx
    rw [IVec3.add_z] at hz
    omega
  · rw [IVec3.add_y]
    omega
  · intro he
    have hx := congrArg IVec3.x he
    have hz := congrArg IVec3.z he
    rw [IVec3.sub_x] at hx
    rw [IVec3.sub_z] at hz
    omega
  · rw [IVec3.sub_y]
    omega
  · intro he
    have hx := congrArg IVec3.x he
    have hz := congrArg IVec3.z he
    rw [IVec3.sub_x, IVec3.add_x] at hx
    rw [IVec3.sub_z, IVec3.add_z] at hz
    omega
  · rw [IVec3.sub_y, IVec3.add_y]
    omega

/-- A new door between two cells, in each of which there may be a door to pair it with. -/
theorem whole_pairs (hw : Whole cs.blockat) {placePoint left right : IVec3} (hright : Beside placePoint right)
    (hleft : Beside placePoint left) (hboth : Beside right left) (hfree : ¬ IsDoor (cs.blockat placePoint))
    (habove : ¬ IsDoor (cs.blockat (placePoint + ⟨0, 1, 0⟩))) (direction : UInt32) {bottomId topId : UInt32}
    (hnew : NewDoor bottomId topId) :
    let s := pairDoor e 2 direction left (cs.blockat left)
      (pairDoor e 0 direction right (cs.blockat right) (cs, bottomId, topId))
    Whole ((s.1.setBlockAndQueueRerender (e 4) placePoint s.2.1 false true true).setBlockAndQueueRerender (e 5)
      (placePoint + ⟨0, 1, 0⟩) s.2.2 false true true).blockat := by
  obtain ⟨hw₁, hnew₁, hframe₁⟩ := pairDoor_spec (e := e) hw 0 direction right hnew
  obtain ⟨hr₁, hr₂, hr₃, hr₄⟩ := hright.cells
  obtain ⟨hl₁, hl₂, hl₃, hl₄⟩ := hleft.cells
  obtain ⟨-, hb₂, hb₃, -⟩ := hboth.cells
  generalize pairDoor e 0 direction right (cs.blockat right) (cs, bottomId, topId) = s₁ at hw₁ hnew₁ hframe₁ ⊢
  have hleft' : cs.blockat left = s₁.1.blockat left := by
    rw [hframe₁ left hboth.ne]
    exact fun h => hb₃ h.symm
  obtain ⟨hw₂, hnew₂, hframe₂⟩ := pairDoor_spec (e := e) hw₁ 2 direction left hnew₁
  rw [hleft']
  dsimp only
  generalize pairDoor e 2 direction left (s₁.1.blockat left) s₁ = s₂ at hw₂ hnew₂ hframe₂ ⊢
  rw [blockat_edit_eq, blockat_edit_eq, hnew₂.top]
  apply hw₂.place hnew₂.bottom
  · rw [hframe₂ _ hl₁ hl₂, hframe₁ _ hr₁ hr₂]
    exact hfree
  · rw [hframe₂ _ hl₃ hl₄, hframe₁ _ hr₃ hr₄]
    exact habove

/-- **A new door** is whole, and leaves the other doors whole. -/
theorem whole_placeDoor (hw : Whole cs.blockat) (direction : Fin 4) {placePoint : IVec3}
    (hfree : ¬ IsDoor (cs.blockat placePoint)) : Whole (placeDoor e direction placePoint cs).blockat := by
  obtain ⟨hplus, hminus, hboth⟩ := beside_axes direction placePoint
  rw [placeDoor]
  split
  · next hair =>
    have habove : ¬ IsDoor (cs.blockat (placePoint + ⟨0, 1, 0⟩)) := by
      rw [hair.1]
      decide
    have hnew := newDoor_direction direction
    by_cases halong : direction = 0 ∨ direction = 1
    · simp only [if_pos halong]
      exact whole_pairs hw hplus hminus hboth hfree habove _ hnew
    · simp only [if_neg halong]
      exact whole_pairs hw hminus hplus ⟨hboth.ne.symm, hboth.height.symm⟩ hfree habove _ hnew
  · exact hw

/-- Any other block is no door, if the item is of a plain kind. -/
theorem whole_placeBlock (hw : Whole cs.blockat) (direction : Fin 4) {placePoint : IVec3}
    (hfree : ¬ IsDoor (cs.blockat placePoint)) {id : UInt32} (hid : id &&& Blocks.blockIdBits = id) :
    Whole (placeBlock e direction placePoint id cs).blockat := by
  rw [placeBlock]
  split
  · exact whole_placeDoor hw direction hfree
  · next hdoor =>
    split
    · next hturned =>
      rw [blockat_edit_eq]
      apply hw.update hfree
      rcases hturned with rfl | rfl | rfl
      · revert direction
        decide
      · revert direction
        decide
      · revert direction
        decide
    · split
      · rw [blockat_edit_eq]
        apply hw.update hfree
        rw [IsDoor, hid]
        exact hdoor
      · exact hw

end ChunkSystem

namespace Game

variable {e : ℕ → Entropy} {aim : Aim} {g g' : Game}

/-- A toggle of a door that is whole changes its two halves. -/
theorem whole_toggle (hw : Whole g.csys.blockat) {blockHit : IVec3} (hdoor : g.idAt blockHit = 19) :
    let half := g.csys.blockat blockHit
    let other := otherHalf blockHit half
    let blockat' := ((g.csys.setBlock other (toggleDoorOpenBit (g.csys.blockat other)) true).setBlockAndQueueRerender (e 0)
      blockHit (toggleDoorOpenBit half) true true true).blockat
    Whole blockat' ∧ blockat' blockHit = toggleDoorOpenBit half ∧
      blockat' other = toggleDoorOpenBit (g.csys.blockat other) := by
  have hne := otherHalf_ne blockHit (g.csys.blockat blockHit)
  dsimp only
  rw [ChunkSystem.blockat_edit_eq, ChunkSystem.blockat_setBlock_eq]
  have hhalf : Function.update (Function.update g.csys.blockat (otherHalf blockHit (g.csys.blockat blockHit))
      (toggleDoorOpenBit (g.csys.blockat (otherHalf blockHit (g.csys.blockat blockHit))))) blockHit
        (toggleDoorOpenBit (g.csys.blockat blockHit)) (otherHalf blockHit (g.csys.blockat blockHit)) =
      toggleDoorOpenBit (g.csys.blockat (otherHalf blockHit (g.csys.blockat blockHit))) := by
    rw [Function.update_of_ne hne, Function.update_self]
  refine ⟨?_, Function.update_self .., hhalf⟩
  apply hw.replace hdoor _ _ (Function.update_self ..) hhalf
  · intro c hc hc'
    rw [Function.update_of_ne hc, Function.update_of_ne hc']
  · right
    rw [hw blockHit hdoor, toggle_xor_top]
    exact ⟨topBit_toggle _, rfl⟩

/-- **The place ray** leaves all doors whole. -/
theorem PlaceRay.whole (h : g.PlaceRay e aim g') (hw : Whole g.csys.blockat) (hplain : EverySlot Slot.Plain g) :
    Whole g'.csys.blockat := by
  cases h with
  | air _ =>
    rw [csys_eat]
    exact hw
  | door _ hdoor =>
    rw [csys_eat]
    exact (whole_toggle hw hdoor).1
  | chest _ _ =>
    rw [csys_updateInventory, csys_eat]
    exact hw
  | idle _ _ =>
    rw [csys_eat]
    exact hw
  | blocked _ _ _ => exact hw
  | placed _ _ hfree =>
    rw [csys_eat]
    apply ChunkSystem.whole_placeBlock hw
    · intro hdoor
      have hover := hfree.overwritable
      rw [idAt, hdoor] at hover
      exact absurd hover (by decide)
    · exact hplain.inventory _ (mem_getD (by rw [g.inventory.length_inv]; exact g.bumpedSlot.isLt))

/-- **The break ray** leaves all doors whole, and takes both halves of a door away. -/
theorem CastBreakRay.whole {draw : UInt32} (h : g.CastBreakRay e draw aim g') (hw : Whole g.csys.blockat) :
    Whole g'.csys.blockat ∧ ∀ blockHit, aim.blockHit = some blockHit → g.idAt blockHit = 19 →
      g'.csys.blockat blockHit = 0 ∧ g'.csys.blockat (otherHalf blockHit (g.csys.blockat blockHit)) = 0 := by
  rw [CastBreakRay] at h
  split at h
  · next hnone =>
    rw [h]
    refine ⟨hw, ?_⟩
    intro blockHit hhit
    rw [hnone] at hhit
    cases hhit
  · next blockHit hhit =>
    have honly : ∀ {q : IVec3 → Prop}, q blockHit → ∀ blockHit', aim.blockHit = some blockHit' → q blockHit' := by
      intro q hq blockHit' hhit'
      rw [hhit, Option.some.injEq] at hhit'
      rw [← hhit']
      exact hq
    dsimp only at h
    split at h
    · next hcactus =>
      obtain ⟨k, cs, set, hends, rfl⟩ := h
      have hdeleted := ChunkSystem.blockat_of_deleted (by decide) hends
        (fun c hc => by rw [List.mem_singleton.mp hc]; exact hcactus)
      refine ⟨?_, honly fun hdoor => ?_⟩
      · rw [ChunkSystem.blockat_foldl_queueRerenderWithKey]
        apply hw.of_changed fun c => cs.blockat c = 0 ∧ g.csys.blockat c &&& Blocks.blockIdBits = 16
        · intro c hc
          exact (hdeleted c).resolve_right hc
        · rintro c ⟨-, hc⟩ hdoor
          rw [IsDoor, hc] at hdoor
          exact absurd hdoor (by decide)
        · rintro c ⟨hc, -⟩ hdoor
          rw [hc] at hdoor
          exact absurd hdoor (by decide)
      · rw [idAt, hcactus] at hdoor
        exact absurd hdoor (by decide)
    · split at h
      · next hdoor =>
        subst h
        have hne := otherHalf_ne blockHit (g.csys.blockat blockHit)
        have hhalf : (g.csys.setBlock blockHit 0 true |>.setBlockAndQueueRerender (e 0)
            (otherHalf blockHit (g.csys.blockat blockHit)) 0 true true false).blockat blockHit = 0 := by
          rw [ChunkSystem.blockat_edit_eq, ChunkSystem.blockat_setBlock_eq, Function.update_of_ne hne.symm,
            Function.update_self]
        have hother : (g.csys.setBlock blockHit 0 true |>.setBlockAndQueueRerender (e 0)
            (otherHalf blockHit (g.csys.blockat blockHit)) 0 true true false).blockat
              (otherHalf blockHit (g.csys.blockat blockHit)) = 0 := by
          rw [ChunkSystem.blockat_edit_eq, Function.update_self]
        refine ⟨?_, honly fun _ => ⟨hhalf, hother⟩⟩
        apply hw.replace hdoor _ _ hhalf hother
        · intro c hc hc'
          rw [ChunkSystem.blockat_edit_eq, ChunkSystem.blockat_setBlock_eq, Function.update_of_ne hc',
            Function.update_of_ne hc]
        · left
          exact ⟨by decide, by decide⟩
      · next hdoor =>
        subst h
        refine ⟨?_, honly fun h => absurd h hdoor⟩
        rw [ChunkSystem.blockat_edit_eq]
        exact hw.update hdoor (by decide)

/-- A game with no doors, and items of plain kinds. -/
structure Doorless (g : Game) : Prop where
  /-- There are no doors. -/
  blocks : ∀ spot, ¬ IsDoor (g.csys.blockat spot)
  /-- The items are of plain kinds. -/
  items : EverySlot Slot.Plain g

/-- **Doors are always whole**: in every run from a world without doors, the other half of every
half of a door is a door, with the other top bit and the same direction, open and opposite bits;
a toggle flips the open bit of both halves, and a break takes both away. -/
theorem doors_whole {g : Game} (h : Reached Doorless (fun _ _ => True) Happens g) :
    (∀ spot, IsDoor (g.csys.blockat spot) →
      Halves (g.csys.blockat spot) (g.csys.blockat (otherHalf spot (g.csys.blockat spot)))) ∧
    ∀ e aim blockHit, aim.blockHit = some blockHit → IsDoor (g.csys.blockat blockHit) →
      ∀ c ∈ [blockHit, otherHalf blockHit (g.csys.blockat blockHit)],
        getDoorOpenBit ((g.castPlaceRay e aim).csys.blockat c) = 1 - getDoorOpenBit (g.csys.blockat c) ∧
        ∀ draw g', g.CastBreakRay e draw aim g' → g'.csys.blockat c = 0 := by
  have hinv : Whole g.csys.blockat ∧ EverySlot Slot.Plain g := by
    apply h.invariant
    · intro g hg
      exact ⟨fun spot hdoor => absurd hdoor (hg.blocks spot), hg.items⟩
    · rintro g g' event ⟨hw, hplain⟩ - hhappens
      refine ⟨?_, slotRule_plain.happens hplain (fun h => h.elim) hhappens⟩
      cases event with
      | castPlaceRay e aim =>
        rw [show g' = _ from hhappens]
        exact (castPlaceRay_spec e aim g).whole hw hplain
      | castBreakRay e draw aim => exact (CastBreakRay.whole hhappens hw).1
      | mouseButton moused =>
        rw [show g' = _ from hhappens, csys_mouseButton]
        exact hw
      | exitMenu =>
        rw [show g' = _ from hhappens]
        exact hw
      | scroll invrowchange =>
        rw [show g' = _ from hhappens]
        exact hw
      | updateInventory =>
        rw [show g' = _ from hhappens, csys_updateInventory]
        exact hw
      | updateDrops near =>
        rw [show g' = _ from hhappens]
        exact hw
      | craftOne recipe =>
        obtain ⟨-, rfl⟩ := hhappens
        exact hw
      | craftAll recipe =>
        obtain ⟨-, inv, -, rfl⟩ := hhappens
        exact hw
      | takeDamage draws amount =>
        rw [show g' = _ from hhappens, csys_takeDamage]
        exact hw
  obtain ⟨hw, -⟩ := hinv
  refine ⟨fun spot hdoor => hw.halves hdoor, ?_⟩
  intro e aim blockHit hhit hdoor c hc
  obtain ⟨-, hhalf, hother⟩ := whole_toggle (e := e) hw hdoor
  have hcsys : (g.castPlaceRay e aim).csys = (g.csys.setBlock (otherHalf blockHit (g.csys.blockat blockHit))
      (toggleDoorOpenBit (g.csys.blockat (otherHalf blockHit (g.csys.blockat blockHit)))) true).setBlockAndQueueRerender
        (e 0) blockHit (toggleDoorOpenBit (g.csys.blockat blockHit)) true true true := by
    rw [castPlaceRay, hhit]
    have hid : g.csys.blockat blockHit &&& Blocks.blockIdBits = 19 := hdoor
    simp only [useHit]
    rw [if_pos hid]
    exact csys_eat _ _
  rw [hcsys]
  rcases List.mem_pair.mp hc with rfl | rfl
  · rw [hhalf, openBit_toggle]
    exact ⟨rfl, fun draw g' hbreak => ((CastBreakRay.whole hbreak hw).2 _ hhit hdoor).1⟩
  · rw [hother, openBit_toggle]
    exact ⟨rfl, fun draw g' hbreak => ((CastBreakRay.whole hbreak hw).2 _ hhit hdoor).2⟩

/-- A stone in a world of air, and a player with two doors in the hand. -/
def oneStone : Game :=
  { newGame with
    csys := ChunkSystem.barren.setBlock ⟨0, 0, 0⟩ 1 true
    inventory := ⟨true, [(31, 1), (49, 10), (19, 2), (0, 0), (0, 0), (0, 0), (0, 0), (0, 0)], rfl⟩ }

/-- A door put on the stone is whole. -/
theorem doors_whole_oneStone :
    let g := oneStone.castPlaceRay (fun _ => .plain) fromAbove
    IsDoor (g.csys.blockat ⟨0, 1, 0⟩) ∧
      Halves (g.csys.blockat ⟨0, 1, 0⟩) (g.csys.blockat (otherHalf ⟨0, 1, 0⟩ (g.csys.blockat ⟨0, 1, 0⟩))) := by
  have hblocks : ∀ c, oneStone.csys.blockat c = if c = ⟨0, 0, 0⟩ then 1 else 0 := by
    intro c
    show (ChunkSystem.barren.setBlock ⟨0, 0, 0⟩ 1 true).blockat c = _
    rw [ChunkSystem.blockat_setBlock_eq, Function.update_apply]
    rfl
  have hdoorless : Doorless oneStone := by
    constructor
    · intro c
      rw [hblocks]
      split
      · decide
      · decide
    · refine ⟨?_, ?_, rfl, List.forall_mem_nil _⟩
      · simp only [oneStone, newGame, Slot.Plain, List.forall_mem_cons, List.not_mem_nil, false_implies, implies_true]
        decide
      · intro spot chest hlookup
        rw [oneStone, newGame, Finmap.lookup_empty] at hlookup
        cases hlookup
  have hreached : Reached Doorless (fun _ _ => True) Happens (oneStone.castPlaceRay (fun _ => .plain) fromAbove) :=
    .step (.castPlaceRay (fun _ => .plain) fromAbove) (.start hdoorless) trivial rfl
  have hdoor : IsDoor ((oneStone.castPlaceRay (fun _ => .plain) fromAbove).csys.blockat ⟨0, 1, 0⟩) := by
    have hplace : (oneStone.castPlaceRay (fun _ => .plain) fromAbove).csys =
        ChunkSystem.placeDoor (fun _ => .plain) 0 ⟨0, 1, 0⟩ oneStone.csys := by
      have hfree : ¬ ¬ Blocks.isOverwritable (oneStone.csys.blockat ⟨0, 1, 0⟩ &&& Blocks.blockIdBits) := by
        rw [hblocks]
        decide
      have huse : oneStone.useHit (fun _ => .plain) fromAbove oneStone.selected ⟨0, 0, 0⟩ = some ({ oneStone with
          csys := ChunkSystem.placeDoor (fun _ => .plain) 0 ⟨0, 1, 0⟩ oneStone.csys
          inventory := oneStone.inventory.useOne 2 (19, 2) }, false) := by
        simp only [useHit]
        rw [hblocks, if_neg (by decide), if_neg (by decide), if_neg (by decide), if_pos (by decide)]
        rw [show (⟨0, 0, 0⟩ : IVec3) + fromAbove.hitNormal.offset = ⟨0, 1, 0⟩ from rfl, if_neg hfree, if_neg (by decide)]
        rfl
      rw [castPlaceRay]
      simp only [fromAbove] at huse ⊢
      rw [huse]
      rfl
    have hfree : oneStone.csys.blockat (⟨0, 1, 0⟩ + ⟨0, 1, 0⟩) = 0 ∧ oneStone.csys.blockat (⟨0, 1, 0⟩ + ⟨0, -1, 0⟩) ≠ 0 := by
      rw [hblocks, hblocks]
      decide
    rw [hplace, ChunkSystem.placeDoor, if_pos hfree]
    simp only [ChunkSystem.pairDoor, hblocks]
    rw [if_neg (by decide), if_neg (by decide), ChunkSystem.blockat_edit_eq, ChunkSystem.blockat_edit_eq]
    decide
  exact ⟨hdoor, (doors_whole hreached).1 _ hdoor⟩

end Game

end Distgard
