import Distgard.Items

/-!
# What chests hold, and where they stand

A chest is a block in the world, and an entry in the registry for what it holds. The entry is
made when the chest is opened, filled by clicks, and never taken out: the break ray takes the
block away and leaves the entry.

## What is proved

* `chests_stored` — in every run in which no chest with something in it is broken, and nothing
  is put into a chest that has been broken while it was open, entries that hold something are
  those of chests that stand; where none stands, a new one is empty.
* `chests_stranded` — breaking a chest leaves what it held where no one can reach it.
-/

namespace Distgard

open Lib

namespace Game

/-- What is held by the entry of a cell. -/
def contents (g : Game) (spot : IVec3) : List Slot :=
  (g.chestRegistry.lookup spot).elim (List.replicate (ROWLENGTH * 4) (0, 0)) ChestInventory.inv

/-- The entry of a cell holds something. -/
def Filled (g : Game) (spot : IVec3) : Prop := ∃ slot ∈ g.contents spot, slot ≠ (0, 0)

/-- Entries that hold something are those of chests that stand. -/
def Stored (g : Game) : Prop := ∀ spot, g.Filled spot → g.idAt spot = 21

/-- No entry that holds something loses its chest or is filled without one. -/
def KeepsChests (g : Game) (event : Event) : Prop :=
  match event with
  | .castBreakRay _ _ aim => ∀ blockHit, aim.blockHit = some blockHit → ¬ g.Filled blockHit ∧
      (g.idAt blockHit = 19 → ¬ g.Filled (DoorInfo.otherHalf blockHit (g.csys.blockat blockHit)))
  | .mouseButton (.ChestSlot _) => g.chestOpen = true → g.mouseSlot ≠ (0, 0) → g.idAt g.currentChest = 21
  | _ => True

end Game

/-! ### What stays in its cell -/

namespace ChunkSystem

variable {cs : ChunkSystem} {e : ℕ → Entropy}

/-- The kind of a block, in a world where one was set. -/
theorem id_update (blockat : IVec3 → UInt32) (spot : IVec3) (block : UInt32) (c : IVec3) :
    Function.update blockat spot block c &&& Blocks.blockIdBits =
      if c = spot then block &&& Blocks.blockIdBits else blockat c &&& Blocks.blockIdBits := by
  rw [Function.update_apply]
  split
  · rfl
  · rfl

/-- Hanging the leaf of a door leaves all kinds of blocks. -/
theorem id_pairDoor (i : ℕ) (direction : UInt32) {neigh : IVec3} {blockbits : UInt32} (s : ChunkSystem × UInt32 × UInt32)
    (hbits : blockbits &&& Blocks.blockIdBits = s.1.blockat neigh &&& Blocks.blockIdBits) (c : IVec3) :
    (pairDoor e i direction neigh blockbits s).1.blockat c &&& Blocks.blockIdBits =
      s.1.blockat c &&& Blocks.blockIdBits := by
  rw [pairDoor]
  split
  · rw [blockat_edit_eq, blockat_edit_eq, id_update, id_update, DoorInfo.setOpposite_and (by decide) (by decide),
      DoorInfo.setOpposite_and (by decide) (by decide), hbits]
    split
    · next h => rw [h]
    · split
      · next h => rw [h]
      · rfl
  · rfl

/-- A block that is put somewhere leaves all kinds of blocks but that of its place and, if it is
a door, of the air above. -/
theorem id_placeBlock (direction : Fin 4) {placePoint : IVec3} (id : UInt32) {c : IVec3} (hc : c ≠ placePoint)
    (hair : cs.blockat c ≠ 0) :
    (placeBlock e direction placePoint id cs).blockat c &&& Blocks.blockIdBits = cs.blockat c &&& Blocks.blockIdBits := by
  have hset : ∀ block automata, (cs.setBlockAndQueueRerender (e 0) placePoint block false true automata).blockat c &&&
      Blocks.blockIdBits = cs.blockat c &&& Blocks.blockIdBits := by
    intro block automata
    rw [blockat_edit_eq, id_update, if_neg hc]
  rw [placeBlock]
  split
  · rw [placeDoor]
    split
    · next habove =>
      have hne : c ≠ placePoint + ⟨0, 1, 0⟩ := by
        rintro rfl
        exact hair habove.1
      simp only
      rw [blockat_edit_eq, blockat_edit_eq, id_update, if_neg hne, id_update, if_neg hc, id_pairDoor, id_pairDoor]
      · rfl
      · rw [id_pairDoor]
        rfl
    · rfl
  · split
    · exact hset _ _
    · split
      · exact hset _ _
      · rfl

end ChunkSystem

namespace Game

variable {e : ℕ → Entropy} {aim : Aim} {g g' : Game}

/-- The place ray leaves chests where they stand, and what chests hold. -/
theorem PlaceRay.stored (h : g.PlaceRay e aim g') :
    (∀ spot, g.idAt spot = 21 → g'.idAt spot = 21) ∧ ∀ spot, g'.contents spot = g.contents spot := by
  have hcontents : ∀ g₁ g₂ : Game, g₂.chestRegistry = g₁.chestRegistry → ∀ spot, g₂.contents spot = g₁.contents spot := by
    intro g₁ g₂ he spot
    rw [contents, contents, he]
  have hids : ∀ g₁ g₂ : Game, g₂.csys = g₁.csys → ∀ spot, g₁.idAt spot = 21 → g₂.idAt spot = 21 := by
    intro g₁ g₂ he spot hspot
    rw [idAt, he]
    exact hspot
  cases h with
  | air _ => exact ⟨hids _ _ (csys_eat _ _), hcontents _ _ (chestRegistry_eat _ _)⟩
  | @door blockHit _ hdoor =>
    refine ⟨?_, hcontents _ _ (chestRegistry_eat _ _)⟩
    intro spot hspot
    have htoggle : ∀ w, DoorInfo.toggleDoorOpenBit w &&& Blocks.blockIdBits = w &&& Blocks.blockIdBits := by
      intro w
      rw [DoorInfo.toggleDoorOpenBit, Bits.xor_and_of_disjoint (by decide)]
    rw [idAt, csys_eat, ChunkSystem.blockat_edit_eq, ChunkSystem.blockat_setBlock_eq, ChunkSystem.id_update,
      ChunkSystem.id_update, htoggle, htoggle, ← hspot, idAt]
    split
    · next hc => rw [hc]
    · split
      · next hc => rw [hc]
      · rfl
  | chest _ _ =>
    constructor
    · apply hids
      rw [csys_updateInventory, csys_eat]
    · intro spot
      rw [contents, lookup_updateInventory, chestRegistry_eat, contents]
      split
      · next hnone =>
        rw [hnone.2]
        rfl
      · rfl
  | idle _ _ => exact ⟨hids _ _ (csys_eat _ _), hcontents _ _ (chestRegistry_eat _ _)⟩
  | blocked _ _ _ => exact ⟨fun _ => id, fun _ => rfl⟩
  | placed _ _ hfree =>
    refine ⟨?_, hcontents _ _ (chestRegistry_eat _ _)⟩
    intro spot hspot
    rw [idAt, csys_eat]
    rw [← hspot]
    apply ChunkSystem.id_placeBlock
    · rintro rfl
      have hover := hfree.overwritable
      rw [hspot] at hover
      exact absurd hover (by decide)
    · intro hair
      rw [idAt, hair] at hspot
      exact absurd hspot (by decide)

/-- The break ray leaves chests that are not hit. -/
theorem CastBreakRay.stored {draw : UInt32} (h : g.CastBreakRay e draw aim g') :
    g'.chestRegistry = g.chestRegistry ∧ ∀ spot, g.idAt spot = 21 → g'.idAt spot = 21 ∨
      ∃ blockHit, aim.blockHit = some blockHit ∧ (spot = blockHit ∨
        g.idAt blockHit = 19 ∧ spot = DoorInfo.otherHalf blockHit (g.csys.blockat blockHit)) := by
  rw [CastBreakRay] at h
  split at h
  · rw [h]
    exact ⟨rfl, fun _ => Or.inl⟩
  · next blockHit hhit =>
    dsimp only at h
    split at h
    · next hcactus =>
      obtain ⟨k, cs, set, hends, rfl⟩ := h
      refine ⟨rfl, ?_⟩
      intro spot hspot
      left
      have hdeleted := ChunkSystem.blockat_of_deleted (by decide) hends
        (fun c hc => by rw [List.mem_singleton.mp hc]; exact hcactus) spot
      rw [idAt, ChunkSystem.blockat_foldl_queueRerenderWithKey]
      rcases hdeleted with hsame | ⟨-, hid⟩
      · rw [hsame]
        exact hspot
      · rw [idAt, hid] at hspot
        exact absurd hspot (by decide)
    · split at h
      · next hdoor =>
        subst h
        refine ⟨rfl, ?_⟩
        intro spot hspot
        by_cases hc : spot = blockHit
        · exact Or.inr ⟨blockHit, hhit, Or.inl hc⟩
        · by_cases hc' : spot = DoorInfo.otherHalf blockHit (g.csys.blockat blockHit)
          · exact Or.inr ⟨blockHit, hhit, Or.inr ⟨hdoor, hc'⟩⟩
          · left
            rw [idAt, ChunkSystem.blockat_edit_eq, ChunkSystem.blockat_setBlock_eq, Function.update_of_ne hc',
              Function.update_of_ne hc]
            exact hspot
      · subst h
        refine ⟨rfl, ?_⟩
        intro spot hspot
        by_cases hc : spot = blockHit
        · exact Or.inr ⟨blockHit, hhit, Or.inl hc⟩
        · left
          rw [idAt, ChunkSystem.blockat_edit_eq, Function.update_of_ne hc]
          exact hspot

theorem length_contents (g : Game) (spot : IVec3) : (g.contents spot).length = ROWLENGTH * 4 := by
  rw [contents]
  cases g.chestRegistry.lookup spot with
  | none => exact List.length_replicate
  | some chest => exact chest.length_inv

/-- Drawing the slots leaves what chests hold. -/
theorem contents_updateInventory (spot : IVec3) : g.updateInventory.contents spot = g.contents spot := by
  rw [contents, lookup_updateInventory, contents]
  split
  · next hnone =>
    rw [hnone.2]
    rfl
  · rfl

theorem Filled.of_updateInventory {spot : IVec3} (h : g.updateInventory.Filled spot) : g.Filled spot := by
  obtain ⟨slot, hslot, hne⟩ := h
  rw [contents_updateInventory] at hslot
  exact ⟨slot, hslot, hne⟩

theorem Click.filled {moused : SlotIndexType} {clicked : Game} {spot : IVec3} (hclick : g.Click moused clicked)
    (h : clicked.Filled spot) :
    g.Filled spot ∨ (∃ i, moused = .ChestSlot i) ∧ g.mouseSlot ≠ (0, 0) ∧ spot = g.currentChest := by
  obtain ⟨slot, hslot, hne⟩ := h
  cases hclick with
  | @chest i chest hlookup =>
    rw [contents, HashMap.lookup_insert'] at hslot
    split at hslot
    · next hspot =>
      have hchest : g.contents spot = chest.inv := by rw [contents, hspot, hlookup, Option.elim_some]
      rcases List.mem_or_eq_of_mem_set hslot with hold | hclick
      · left
        exact ⟨slot, by rw [hchest]; exact hold, hne⟩
      · by_cases hempty : chest.inv.getD i (0, 0) = (0, 0)
        · right
          refine ⟨⟨i, rfl⟩, ?_, hspot⟩
          intro hmouse
          rw [hempty, hmouse] at hclick
          exact hne hclick
        · left
          refine ⟨chest.inv.getD i (0, 0), ?_, hempty⟩
          rw [hchest]
          exact mem_getD (by rw [chest.length_inv]; exact i.isLt)
    · left
      exact ⟨slot, hslot, hne⟩
  | inv =>
    left
    exact ⟨slot, hslot, hne⟩

/-- A click fills no entry but that of the open chest, and that only from the mouse. -/
theorem filled_mouseButton {moused : SlotIndexType} {spot : IVec3} (h : (g.mouseButton moused).Filled spot) :
    g.Filled spot ∨ (∃ i, moused = .ChestSlot i) ∧ g.chestOpen = true ∧ g.mouseSlot ≠ (0, 0) ∧
      spot = g.currentChest := by
  rcases mouseButton_cases moused g with hsame | ⟨hopen, clicked, hclick, hdone⟩
  · rw [hsame] at h
    exact .inl h
  · have hclicked : clicked.Filled spot := by
      rcases hdone with hdone | hdone
      · rw [hdone] at h
        exact h
      · rw [hdone] at h
        exact h.of_updateInventory
    rcases hclick.filled hclicked with hold | ⟨hslot, hmouse, hspot⟩
    · exact .inl hold
    · exact .inr ⟨hslot, hopen, hmouse, hspot⟩

/-- A game in which no chest has been opened. -/
def Unopened (g : Game) : Prop := g.chestRegistry = ∅

/-- **What is in chests can be reached**: in every run from an empty registry that breaks no chest
with something in it, and puts nothing into the open chest when that has been broken, every entry
with something in it is that of a chest that stands. Where no chest stands, one that is put there
is empty. -/
theorem chests_stored {g : Game} (h : Reached Unopened KeepsChests Happens g) :
    (∀ spot, g.Filled spot → g.idAt spot = 21) ∧
      ∀ e aim spot, g.idAt spot ≠ 21 → (g.castPlaceRay e aim).contents spot = List.replicate (ROWLENGTH * 4) (0, 0) := by
  have hinv : g.Stored := by
    apply h.invariant
    · rintro g hg spot ⟨slot, hslot, hne⟩
      rw [contents, hg, Finmap.lookup_empty] at hslot
      exact absurd (List.eq_of_mem_replicate hslot) hne
    · intro g g' event hg hkeeps hhappens spot hfilled
      cases event with
      | castPlaceRay e aim =>
        have hray := (castPlaceRay_spec e aim g).stored
        rw [← (show g' = _ from hhappens)] at hray
        apply hray.1
        apply hg
        obtain ⟨slot, hslot, hne⟩ := hfilled
        rw [hray.2] at hslot
        exact ⟨slot, hslot, hne⟩
      | castBreakRay e draw aim =>
        obtain ⟨hregistry, hids⟩ := CastBreakRay.stored hhappens
        have hfilled' : g.Filled spot := by
          obtain ⟨slot, hslot, hne⟩ := hfilled
          rw [contents, hregistry] at hslot
          exact ⟨slot, hslot, hne⟩
        rcases hids spot (hg spot hfilled') with hstays | ⟨blockHit, hhit, hbroken⟩
        · exact hstays
        · obtain ⟨hhere, hother⟩ := hkeeps blockHit hhit
          rcases hbroken with rfl | ⟨hdoor, rfl⟩
          · exact absurd hfilled' hhere
          · exact absurd hfilled' (hother hdoor)
      | mouseButton moused =>
        rw [show g' = _ from hhappens] at hfilled ⊢
        rw [idAt, csys_mouseButton]
        rcases filled_mouseButton hfilled with hold | ⟨⟨i, rfl⟩, hopen, hmouse, rfl⟩
        · exact hg spot hold
        · exact hkeeps hopen hmouse
      | exitMenu =>
        rw [show g' = _ from hhappens] at hfilled ⊢
        exact hg spot hfilled
      | scroll invrowchange =>
        rw [show g' = _ from hhappens] at hfilled ⊢
        exact hg spot hfilled
      | updateInventory =>
        rw [show g' = _ from hhappens] at hfilled ⊢
        rw [idAt, csys_updateInventory]
        exact hg spot hfilled.of_updateInventory
      | updateDrops near =>
        rw [show g' = _ from hhappens] at hfilled ⊢
        exact hg spot hfilled
      | craftOne recipe =>
        obtain ⟨-, rfl⟩ := hhappens
        exact hg spot hfilled
      | craftAll recipe =>
        obtain ⟨-, inv, -, rfl⟩ := hhappens
        exact hg spot hfilled
      | takeDamage draws amount =>
        rw [show g' = _ from hhappens] at hfilled ⊢
        rw [idAt, csys_takeDamage]
        apply hg
        obtain ⟨slot, hslot, hne⟩ := hfilled
        rw [contents, chestRegistry_takeDamage] at hslot
        exact ⟨slot, hslot, hne⟩
  refine ⟨hinv, ?_⟩
  intro e aim spot hspot
  rw [(castPlaceRay_spec e aim g).stored.2]
  apply List.eq_replicate_iff.mpr
  refine ⟨length_contents g spot, ?_⟩
  intro slot hslot
  by_contra hne
  exact hspot (hinv spot ⟨slot, hslot, hne⟩)

/-- A chest in a world of air, and a player at the start. -/
def oneChest : Game := { newGame with csys := ChunkSystem.barren.setBlock ⟨0, 0, 0⟩ 21 true }

/-- The chest has been opened. -/
def openedChest : Game :=
  { oneChest with
    chestRegistry := (∅ : HashMap IVec3 ChestInventory).insert ⟨0, 0, 0⟩ ChestInventory.empty
    chestOpen := true }

/-- The first item is carried by the mouse. -/
def takenItem : Game := { openedChest with inventory := oneChest.inventory.setSlot 0 (0, 0), mouseSlot := (31, 1) }

/-- The first item has been put into the chest. -/
def filledChest : Game :=
  { oneChest with
    inventory := oneChest.inventory.setSlot 0 (0, 0)
    chestRegistry := openedChest.chestRegistry.insert ⟨0, 0, 0⟩ (ChestInventory.empty.setSlot 0 (31, 1))
    chestOpen := true }

/-- The chest has been broken. -/
def brokenChest : Game :=
  { filledChest with
    csys := filledChest.csys.setBlockAndQueueRerender .plain ⟨0, 0, 0⟩ 0 true true false
    drops := [(21, 1)] }

theorem idAt_oneChest : oneChest.csys.blockat ⟨0, 0, 0⟩ = 21 := by
  rw [oneChest, ChunkSystem.blockat_setBlock_eq, Function.update_self]

theorem castPlaceRay_oneChest : oneChest.castPlaceRay (fun _ => .plain) fromAbove = openedChest := by
  have huse : oneChest.useHit (fun _ => .plain) fromAbove oneChest.selected ⟨0, 0, 0⟩ = some (oneChest, true) := by
    simp only [useHit]
    rw [idAt_oneChest, if_neg (by decide), if_pos (by decide)]
    rfl
  have heat : oneChest.eat oneChest.selected = oneChest := rfl
  have hnone : oneChest.chestRegistry.lookup oneChest.currentChest = none := Finmap.lookup_empty _
  rw [castPlaceRay]
  simp only [fromAbove] at huse ⊢
  rw [huse]
  simp only [if_true]
  rw [heat, updateInventory, hnone]
  rfl

/-- Clicks put the first item into the open chest. -/
theorem mouseButton_openedChest :
    (openedChest.mouseButton (.InvSlot 0)).mouseButton (.ChestSlot 0) = filledChest := by
  have hlookup : takenItem.chestRegistry.lookup takenItem.currentChest = some ChestInventory.empty :=
    Finmap.lookup_insert _
  have htaken : openedChest.mouseButton (.InvSlot 0) = takenItem.updateInventory := rfl
  have hput : takenItem.mouseButton (.ChestSlot 0) = filledChest.updateInventory := by
    have hopen : takenItem.chestOpen = true := rfl
    unfold mouseButton
    rw [if_pos hopen]
    simp only
    rw [hlookup]
    rfl
  rw [htaken, updateInventory_of_lookup hlookup, hput]
  exact updateInventory_of_lookup (Finmap.lookup_insert _)

/-- **Broken chests keep what they held**: from an empty registry a chest is opened, filled and
broken, and its entry still holds an item where no chest stands. -/
theorem chests_stranded :
    Reached Unopened (fun _ _ => True) Happens brokenChest ∧ brokenChest.Filled ⟨0, 0, 0⟩ ∧
      brokenChest.idAt ⟨0, 0, 0⟩ ≠ 21 ∧ ¬ brokenChest.Stored := by
  have hfilled : brokenChest.Filled ⟨0, 0, 0⟩ := by
    refine ⟨(31, 1), ?_, by decide⟩
    rw [contents, brokenChest, filledChest, Finmap.lookup_insert, Option.elim_some]
    decide
  have hid : brokenChest.idAt ⟨0, 0, 0⟩ ≠ 21 := by
    rw [idAt, brokenChest, ChunkSystem.blockat_edit_eq, Function.update_self]
    decide
  refine ⟨?_, hfilled, hid, fun h => hid (h _ hfilled)⟩
  have hstart : Unopened oneChest := rfl
  have hopened : Reached Unopened (fun _ _ => True) Happens openedChest :=
    .step (.castPlaceRay (fun _ => .plain) fromAbove) (.start hstart) trivial castPlaceRay_oneChest.symm
  have hclicked : Reached Unopened (fun _ _ => True) Happens filledChest :=
    .step (.mouseButton (.ChestSlot 0)) (.step (.mouseButton (.InvSlot 0)) hopened trivial rfl) trivial
      mouseButton_openedChest.symm
  have hbroken : filledChest.CastBreakRay (fun _ => .plain) 99 fromAbove brokenChest := by
    have hblock : filledChest.csys.blockat ⟨0, 0, 0⟩ = 21 := idAt_oneChest
    simp only [CastBreakRay, fromAbove]
    rw [hblock, if_neg (by decide), if_neg (by decide), if_pos (by decide)]
    rfl
  exact .step (.castBreakRay (fun _ => .plain) 99 fromAbove) hclicked trivial hbroken

/-- A chest that is filled stands where its entry is. -/
theorem chests_stored_filledChest : filledChest.Filled ⟨0, 0, 0⟩ ∧ filledChest.idAt ⟨0, 0, 0⟩ = 21 := by
  have hstart : Unopened oneChest := rfl
  have hopened : Reached Unopened KeepsChests Happens openedChest :=
    .step (.castPlaceRay (fun _ => .plain) fromAbove) (.start hstart) trivial castPlaceRay_oneChest.symm
  have hkeeps : (openedChest.mouseButton (.InvSlot 0)).KeepsChests (.mouseButton (.ChestSlot 0)) := by
    intro _ _
    rw [idAt, csys_mouseButton]
    show oneChest.csys.blockat ⟨0, 0, 0⟩ &&& Blocks.blockIdBits = 21
    rw [idAt_oneChest]
    decide
  have hclicked : Reached Unopened KeepsChests Happens filledChest :=
    .step (.mouseButton (.ChestSlot 0)) (.step (.mouseButton (.InvSlot 0)) hopened trivial rfl) hkeeps
      mouseButton_openedChest.symm
  have hfilled : filledChest.Filled ⟨0, 0, 0⟩ := by
    refine ⟨(31, 1), ?_, by decide⟩
    rw [contents, filledChest, Finmap.lookup_insert, Option.elim_some]
    decide
  exact ⟨hfilled, (chests_stored hclicked).1 _ hfilled⟩

end Game

end Distgard
