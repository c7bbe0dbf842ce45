import Distgard.Lib.Run
import Distgard.Slots

/-!
# The items of a game

A run starts with the items every player starts with, and goes through pickups, crafts, placing,
eating, breaking, clicks and deaths in any order. The totals of all items stay below `2 ^ 32`.

## What is proved

* `items_kept` — a slot holds no item exactly when its count is zero; where a count is lowered,
  it is not zero; clicks and pickups keep the totals.
-/

namespace Distgard

open Lib

/-- A slot has an item exactly when its count is not zero. -/
def Slot.Consistent (slot : Slot) : Prop := slot.1 = 0 ↔ slot.2 = 0

instance (slot : Slot) : Decidable slot.Consistent := inferInstanceAs (Decidable (_ ↔ _))

/-- All events keep slots consistent, where no count wraps around. -/
theorem slotRule_consistent : SlotRule Slot.Consistent True where
  empty := Iff.rfl
  useOne := by
    rintro id count hslot hne hone
    have hid : id ≠ 0 := by
      rcases hne with hne | hpos
      · exact hne
      · rintro rfl
        have hzero : count = 0 := hslot.mp rfl
        rw [hzero] at hpos
        exact absurd hpos (by decide)
    refine iff_of_false hid ?_
    intro hzero
    simp only at hzero
    apply hone
    rw [← UInt32.sub_add_cancel count 1, hzero, UInt32.zero_add]
  put := by
    rintro id count id' count' hnew hslot hid hroom
    have hsum : (count' + count).toNat = count'.toNat + count.toNat := by
      rw [UInt32.toNat_add, Nat.mod_eq_of_lt (hroom trivial)]
    rw [Slot.Consistent] at hnew hslot ⊢
    simp only at hnew hslot ⊢
    by_cases h0 : id = 0
    · have hid' : id' = 0 := by
        rcases hid with hid | hid
        · exact hid
        · rw [hid, h0]
      rw [hnew.mp h0, hslot.mp hid', UInt32.zero_add]
      exact iff_of_true h0 rfl
    · refine iff_of_false h0 ?_
      intro hzero
      rw [hzero, UInt32.toNat_zero] at hsum
      apply h0
      rw [hnew, ← UInt32.toNat_inj, UInt32.toNat_zero]
      omega
  starting := by
    simp only [STARTINGITEMS, Slot.Consistent, List.forall_mem_cons, List.not_mem_nil, false_implies, implies_true]
    decide
  result := by decide
  block := fun _ hne => iff_of_false hne (by simp)
  apple := by
    intro count h
    have hleaf : (7 : UInt32) ≠ 0 := by decide
    have happle : (32 : UInt32) ≠ 0 := by decide
    exact iff_of_false happle fun hzero => hleaf (h.mpr hzero)
  clean := fun _ _ hslot hid => hslot.mp hid

/-- There is no more of an item than there are items. -/
theorem Recipe.total_le (id : UInt32) (inv : List Slot) :
    total id inv ≤ (inv.map fun slot => slot.2.toNat).sum := by
  induction inv with
  | nil => exact Nat.le_refl 0
  | cons slot inv ih =>
    rw [total_cons', Slot.of, List.map_cons, List.sum_cons]
    split
    · exact Nat.add_le_add_left ih _
    · omega

namespace Game

/-- A game at its start: what a player starts with, an empty hand, nothing lying around. What
chests hold from earlier games is consistent. -/
structure Starting (g : Game) : Prop where
  /-- The inventory. -/
  inventory : g.inventory.inv = STARTINGITEMS
  /-- The chests. -/
  chests : ∀ spot chest, g.chestRegistry.lookup spot = some chest → ∀ slot ∈ chest.inv, slot.Consistent
  /-- The mouse. -/
  mouse : g.mouseSlot = (0, 0)
  /-- What lies around. -/
  drops : g.drops = []

/-- A slot whose count is lowered: the selected one, where the place ray changes the inventory,
or one from which an ingredient is taken. -/
inductive Lowers (g : Game) : Event → Slot → Prop
  /-- Placing and eating. -/
  | use {e : ℕ → Entropy} {aim : Aim} : (g.castPlaceRay e aim).inventory ≠ g.inventory →
      Lowers g (.castPlaceRay e aim) g.selected
  /-- Crafting once. -/
  | craftOne {recipe : Recipe} {need taken : UInt32} {slot : Slot} {s : Slot × UInt32} :
      Recipe.takeUnit need (slot, taken) = some s → Lowers g (.craftOne recipe) slot
  /-- Crafting all. -/
  | craftAll {recipe : Recipe} {need taken : UInt32} {slot : Slot} {s : Slot × UInt32} :
      Recipe.takeUnit need (slot, taken) = some s → Lowers g (.craftAll recipe) slot

end Game

/-- Clicks and pickups, which move items and make none. -/
def Event.Moves (event : Event) : Prop :=
  match event with
  | .mouseButton _ => True
  | .updateDrops _ => True
  | _ => False

namespace Game

/-- **The items of a game**: in every run in which the totals are small enough, the slots of the
inventory, of all chests and of the mouse hold no item exactly when their count is zero, and so
does what lies around; no count is lowered that is zero; and clicks and pickups keep the totals. -/
theorem items_kept {g : Game} (h : Reached Starting Within Happens g) :
    EverySlot Slot.Consistent g ∧ (∀ event slot, g.Lowers event slot → 0 < slot.2) ∧
      ∀ event g', event.Moves → g.Within event → g.Happens event g' → ∀ id, g'.total id = g.total id := by
  have hslots : EverySlot Slot.Consistent g := by
    apply h.invariant
    · intro g hg
      refine ⟨?_, hg.chests, ?_, ?_⟩
      · rw [hg.inventory]
        exact slotRule_consistent.starting
      · rw [hg.mouse]
        exact slotRule_consistent.empty
      · rw [hg.drops]
        exact List.forall_mem_nil _
    · intro g g' event hg hwithin hhappens
      exact slotRule_consistent.happens hg (fun _ => hwithin) hhappens
  refine ⟨hslots, ?_, ?_⟩
  · rintro event slot (hchanged | htaken | htaken)
    · rcases (castPlaceRay_spec _ _ g).inventory with hsame | ⟨hne, -⟩
      · exact absurd hsame hchanged
      · have hmem : g.selected ∈ g.inventory.inv := mem_getD (g.inventory.lt_length_inv g.bumpedSlot)
        apply UInt32.pos_iff_ne_zero.mpr
        exact fun hzero => hne ((hslots.inventory _ hmem).mpr hzero)
    · rw [Recipe.takeUnit] at htaken
      split at htaken
      · next hpos => exact hpos.1
      · cases htaken
    · rw [Recipe.takeUnit] at htaken
      split at htaken
      · next hpos => exact hpos.1
      · cases htaken
  · intro event g' hmoves hwithin hhappens
    have hsmall : ∀ id, g.total id < 2 ^ 32 := by
      intro id
      have := hwithin id
      omega
    cases event with
    | mouseButton moused =>
      rw [show g' = _ from hhappens]
      exact total_mouseButton moused hsmall
    | updateDrops near =>
      rw [show g' = _ from hhappens]
      exact total_updateDrops near (fun slot hslot => (hslots.inventory slot hslot).mp)
        (fun slot hslot => (hslots.drops slot hslot).mp) hsmall
    | _ => exact hmoves.elim

theorem length_startingItems : STARTINGITEMS.length = ROWLENGTH := rfl

/-- A game at its start, in a world of air. -/
def newGame : Game where
  csys := .barren
  inventory := ⟨true, STARTINGITEMS, length_startingItems⟩
  chestRegistry := ∅
  currentChest := ⟨0, 0, 0⟩
  chestOpen := false
  mouseSlot := (0, 0)
  drops := []
  bumpedSlot := ⟨2, by decide⟩
  health := 20

/-- The block in the cell at zero is hit from above. -/
def fromAbove : Aim := ⟨some ⟨0, 0, 0⟩, .TOP, ⟨9, 9, 9⟩, ⟨0, by decide⟩⟩

/-- Who dies at the start can pick up what was lost, and then has twice the starting items. -/
theorem items_kept_afterDeath :
    let g := (newGame.takeDamage (fun _ => 0) 20).updateDrops fun _ => true
    g.inventory.inv = [(31, 2), (49, 20), (0, 0), (0, 0), (0, 0), (0, 0), (0, 0), (0, 0)] ∧
      EverySlot Slot.Consistent g := by
  have hstarting : Starting newGame := by
    refine ⟨rfl, ?_, rfl, rfl⟩
    intro spot chest hlookup
    rw [newGame, Finmap.lookup_empty] at hlookup
    cases hlookup
  have hitems : ∀ id, Recipe.total id STARTINGITEMS ≤ 11 := fun id => Recipe.total_le id STARTINGITEMS
  have hfirst : newGame.Within (.takeDamage (fun _ => 0) 20) := by
    intro id
    have hid := hitems id
    show Recipe.total id STARTINGITEMS + 0 + Slot.of id (0, 0) + 0 + 0 < 2 ^ 32
    rw [Slot.of, UInt32.toNat_zero, ite_self]
    omega
  have hsecond : (newGame.takeDamage (fun _ => 0) 20).Within (.updateDrops fun _ => true) := by
    intro id
    have hid := hitems id
    show Recipe.total id STARTINGITEMS + 0 + Slot.of id (0, 0) + Recipe.total id STARTINGITEMS + 0 < 2 ^ 32
    rw [Slot.of, UInt32.toNat_zero, ite_self]
    omega
  have hreached : Reached Starting Within Happens ((newGame.takeDamage (fun _ => 0) 20).updateDrops fun _ => true) :=
    .step (.updateDrops fun _ => true) (.step (.takeDamage (fun _ => 0) 20) (.start hstarting) hfirst rfl) hsecond rfl
  exact ⟨by decide, (items_kept hreached).1⟩

end Game

end Distgard
