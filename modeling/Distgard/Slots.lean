import Distgard.Game

/-!
# What the slots of a game hold

A property of slots that is kept by taking one item out, by putting items in and by the items
that come into the game is kept by all events. Where adding counts matters, the totals have
to be small enough that no count wraps around.

## What is proved

* `Keeps.craftOne`, `Keeps.craftsAll` — what crafting does to the slots.
* `total_pickUp`, `total_mouseButton` — pickups and clicks keep the totals.
* `SlotRule.happens` — every event keeps the property.
-/

namespace Distgard

open Lib

/-! ### Crafting -/

namespace Recipe

variable {recipe : Recipe} {P : Slot → Prop}

/-- Crafting keeps a property of slots. -/
structure Keeps (recipe : Recipe) (P : Slot → Prop) : Prop where
  /-- Empty slots have it. -/
  empty : P (0, 0)
  /-- Taking one item out keeps it. -/
  takeOne : ∀ id count, P (id, count) → 0 < count → count - 1 ≠ 0 → P (id, count - 1)
  /-- Putting the result in keeps it. -/
  result : ∀ slot, P slot → slot.1 = 0 ∨ slot.1 = recipe.result.1 → slot.2 + recipe.result.2 ≤ 999 →
    P (recipe.result.1, slot.2 + recipe.result.2)

theorem Keeps.takeUnits (h : recipe.Keeps P) {slot : Slot} (hslot : P slot) (need amt : UInt32) :
    P (takeUnits need slot amt).1 := by
  have hround : ∀ s s', P s.1 → takeUnit need s = some s' → P s'.1 := by
    rintro ⟨⟨id, count⟩, taken⟩ s' hs hround
    rw [takeUnit] at hround
    split at hround
    · next hpos =>
      cases hround
      simp only
      split
      · exact h.empty
      · next hne => exact h.takeOne id count hs hpos.1 hne
    · cases hround
  exact (Loop.exec_induct (takeUnit_decreases need) (I := fun s => P s.1) hround hslot).1

theorem Keeps.takeIngredient (h : recipe.Keeps P) (req : Slot) (amt : UInt32) {inv : List Slot}
    (hinv : ∀ slot ∈ inv, P slot) : ∀ slot ∈ takeIngredient req amt inv, P slot := by
  induction inv generalizing amt with
  | nil => exact hinv
  | cons slot inv ih =>
    have hslot := hinv slot (List.mem_cons_self ..)
    have hrest := fun s hs => hinv s (List.mem_cons_of_mem _ hs)
    rw [Recipe.takeIngredient]
    intro s hs
    split at hs
    · rcases List.mem_cons.mp hs with rfl | hs
      · exact h.takeUnits hslot _ _
      · split at hs
        · exact hrest s hs
        · exact ih _ hrest s hs
    · rcases List.mem_cons.mp hs with rfl | hs
      · exact hslot
      · exact ih _ hrest s hs

theorem Keeps.subtractIngredients (h : recipe.Keeps P) {inv : List Slot} (hinv : ∀ slot ∈ inv, P slot) :
    ∀ slot ∈ recipe.subtractIngredients inv, P slot := by
  apply foldl_induct (fun inv : List Slot => ∀ slot ∈ inv, P slot)
  · intro inv req _ hinv
    exact h.takeIngredient req 0 hinv
  · exact hinv

theorem Keeps.placeResult (h : recipe.Keeps P) {inv inv' : List Slot} (hinv : ∀ slot ∈ inv, P slot)
    (hplace : recipe.placeResult inv = some inv') : ∀ slot ∈ inv', P slot := by
  induction inv generalizing inv' with
  | nil => cases hplace
  | cons slot inv ih =>
    have hrest := fun s hs => hinv s (List.mem_cons_of_mem _ hs)
    rw [placeResult_cons] at hplace
    split at hplace
    · next hroom =>
      cases hplace
      intro s hs
      rcases List.mem_cons.mp hs with rfl | hs
      · exact h.result slot (hinv slot (List.mem_cons_self ..)) hroom.1 hroom.2
      · exact hrest s hs
    · obtain ⟨inv'', hinv'', rfl⟩ := Option.map_eq_some_iff.mp hplace
      intro s hs
      rcases List.mem_cons.mp hs with rfl | hs
      · exact hinv s (List.mem_cons_self ..)
      · exact ih hrest hinv'' s hs

/-- Crafting once keeps the property. -/
theorem Keeps.craftOne (h : recipe.Keeps P) {inv : Inventory} (hinv : ∀ slot ∈ inv.inv, P slot) :
    ∀ slot ∈ (recipe.craftOne inv).inv, P slot := by
  obtain ⟨hlacks, hhas⟩ := craftOne_eq recipe inv
  cases hreqs : recipe.hasReqs inv.inv with
  | false =>
    rw [hlacks hreqs]
    exact hinv
  | true =>
    cases hplace : recipe.placeResult (recipe.subtractIngredients inv.inv) with
    | none =>
      rw [(hhas hreqs).1 hplace]
      exact hinv
    | some inv' =>
      rw [((hhas hreqs).2 inv' hplace).1]
      exact h.placeResult (h.subtractIngredients hinv) hplace

theorem Keeps.craftRound (h : recipe.Keeps P) {s s' : List Slot × Bool} (hs : ∀ slot ∈ s.1, P slot)
    (hround : recipe.craftRound s = some s') : ∀ slot ∈ s'.1, P slot := by
  obtain ⟨inv, more⟩ := s
  cases more with
  | false => cases hround
  | true =>
    obtain ⟨hlacks, hhas⟩ := craftRound_eq recipe inv
    cases hreqs : recipe.hasReqs inv with
    | false =>
      rw [hlacks hreqs] at hround
      cases hround
      exact hs
    | true =>
      cases hplace : recipe.placeResult (recipe.subtractIngredients inv) with
      | none =>
        rw [(hhas hreqs).1 hplace] at hround
        cases hround
        exact h.subtractIngredients hs
      | some inv' =>
        rw [(hhas hreqs).2 inv' hplace] at hround
        cases hround
        exact h.placeResult (h.subtractIngredients hs) hplace

/-- Crafting all keeps the property. -/
theorem Keeps.craftsAll (h : recipe.Keeps P) {inv inv' : Inventory} (hall : recipe.CraftsAll inv inv')
    (hinv : ∀ slot ∈ inv.inv, P slot) : ∀ slot ∈ inv'.inv, P slot := by
  obtain ⟨k, newinv, hends, rfl⟩ := hall
  split
  · rw [(setDiffering_spec newinv inv (length_of_ends recipe hends)).1]
    exact hends.induct (fun _ _ => h.craftRound) hinv
  · exact hinv

end Recipe

/-! ### Totals -/

/-- What a slot adds to the total of an item. -/
def Slot.of (id : UInt32) (slot : Slot) : ℕ := if slot.1 = id then slot.2.toNat else 0

namespace Game

/-- What the open chest holds. -/
def openChest (g : Game) : List Slot := (g.chestRegistry.lookup g.currentChest).elim [] ChestInventory.inv

/-- How many of an item there are in the inventory, in the open chest, in the mouse and lying
around. -/
def total (id : UInt32) (g : Game) : ℕ :=
  Recipe.total id g.inventory.inv + Recipe.total id g.openChest + g.mouseSlot.of id + Recipe.total id g.drops

end Game

namespace Recipe

theorem total_cons' (id : UInt32) (slot : Slot) (inv : List Slot) :
    total id (slot :: inv) = slot.of id + total id inv := total_cons id slot inv

/-- Replacing a slot replaces what it adds. -/
theorem total_set {inv : List Slot} {i : ℕ} (hi : i < inv.length) (id : UInt32) (slot : Slot) :
    total id (inv.set i slot) + (inv.getD i (0, 0)).of id = total id inv + slot.of id := by
  induction inv generalizing i with
  | nil => exact absurd hi (Nat.not_lt_zero i)
  | cons s inv ih =>
    cases i with
    | zero =>
      rw [List.set_cons_zero, List.getD_cons_zero, total_cons', total_cons']
      omega
    | succ i =>
      have hrest := ih (Nat.lt_of_succ_lt_succ hi)
      rw [List.set_cons_succ, List.getD_cons_succ, total_cons', total_cons']
      omega

end Recipe

theorem mem_getD {inv : List Slot} {i : ℕ} (hi : i < inv.length) : inv.getD i (0, 0) ∈ inv := by
  rw [List.getD_eq_getElem _ _ hi]
  exact List.getElem_mem hi

theorem Slot.of_le_total {slot : Slot} {inv : List Slot} (h : slot ∈ inv) (id : UInt32) :
    slot.of id ≤ Recipe.total id inv := by
  induction inv with
  | nil => cases h
  | cons s inv ih =>
    rw [Recipe.total_cons']
    rcases List.mem_cons.mp h with rfl | h
    · exact Nat.le_add_right _ _
    · exact Nat.le_trans (ih h) (Nat.le_add_left _ _)

theorem Slot.of_self (slot : Slot) : slot.of slot.1 = slot.2.toNat := if_pos rfl

/-- Counts of one item that are added without wrapping around. -/
theorem Slot.of_add (id : UInt32) {count count' : UInt32} (h : count.toNat + count'.toNat < 2 ^ 32) (x : UInt32) :
    Slot.of x (id, count + count') = Slot.of x (id, count) + Slot.of x (id, count') := by
  rw [Slot.of, Slot.of, Slot.of]
  simp only
  split
  · rw [UInt32.toNat_add, Nat.mod_eq_of_lt h]
  · rfl

namespace Inventory

variable {inv inv' : Inventory} {id count : UInt32}

/-- Where items are put: into a slot with the same item, or else into an empty one. -/
theorem addToInventory_cases (h : inv.addToInventory id count = some inv') :
    ∃ i < inv.inv.length, ∃ newcount, inv'.inv = inv.inv.set i (id, newcount) ∧
      ((inv.inv.getD i (0, 0)).1 = id ∧ newcount = (inv.inv.getD i (0, 0)).2 + count ∨
        (inv.inv.getD i (0, 0)).1 = 0 ∧ newcount = count) := by
  rw [addToInventory] at h
  cases hsame : inv.inv.findIdx? fun item => item.1 = id with
  | some i =>
    obtain ⟨hi, hid, -⟩ := List.findIdx?_eq_some_iff_getElem.mp hsame
    simp only [hsame, Option.some.injEq] at h
    subst h
    refine ⟨i, hi, _, rfl, Or.inl ⟨?_, rfl⟩⟩
    rw [List.getD_eq_getElem _ _ hi]
    exact of_decide_eq_true hid
  | none =>
    cases hempty : inv.inv.findIdx? fun item => item.1 = 0 with
    | some i =>
      obtain ⟨hi, hid, -⟩ := List.findIdx?_eq_some_iff_getElem.mp hempty
      simp only [hsame, hempty, Option.some.injEq] at h
      subst h
      refine ⟨i, hi, _, rfl, Or.inr ⟨?_, rfl⟩⟩
      rw [List.getD_eq_getElem _ _ hi]
      exact of_decide_eq_true hid
    | none =>
      simp only [hsame, hempty, reduceCtorEq] at h

/-- What the slots and the new items have, the slots have afterwards, if sums have it. -/
theorem forall_addToInventory {P : Slot → Prop} (h : inv.addToInventory id count = some inv')
    (hinv : ∀ slot ∈ inv.inv, P slot) (hsum : ∀ slot ∈ inv.inv, slot.1 = id → P (id, slot.2 + count))
    (hnew : P (id, count)) : ∀ slot ∈ inv'.inv, P slot := by
  obtain ⟨i, hi, newcount, hinv', hslot⟩ := addToInventory_cases h
  rw [hinv']
  intro slot hmem
  rcases List.mem_or_eq_of_mem_set hmem with hmem | rfl
  · exact hinv slot hmem
  · rcases hslot with ⟨hid, rfl⟩ | ⟨-, rfl⟩
    · exact hsum _ (mem_getD hi) hid
    · exact hnew

/-- Items put into the inventory are added to its totals. -/
theorem total_addToInventory (hclean : ∀ slot ∈ inv.inv, slot.1 = 0 → slot.2 = 0)
    (hsmall : Recipe.total id inv.inv + count.toNat < 2 ^ 32) (h : inv.addToInventory id count = some inv')
    (x : UInt32) : Recipe.total x inv'.inv = Recipe.total x inv.inv + Slot.of x (id, count) := by
  obtain ⟨i, hi, newcount, hinv', hslot⟩ := addToInventory_cases h
  have hset := Recipe.total_set hi x (id, newcount)
  have hmem := mem_getD hi
  have hle := Slot.of_le_total hmem x
  rw [hinv']
  rcases hslot with ⟨hid, rfl⟩ | ⟨hid, rfl⟩
  · have hle' := Slot.of_le_total hmem id
    rw [← hid, Slot.of_self, hid] at hle'
    have hnew := Slot.of_add id (show (inv.inv.getD i (0, 0)).2.toNat + count.toNat < 2 ^ 32 by omega) x
    have hold : Slot.of x (inv.inv.getD i (0, 0)) = Slot.of x (id, (inv.inv.getD i (0, 0)).2) := by rw [← hid]
    omega
  · have hzero : Slot.of x (inv.inv.getD i (0, 0)) = 0 := by
      rw [Slot.of, hclean _ hmem hid, UInt32.toNat_zero, ite_self]
    omega

end Inventory

/-- **Pickups** keep the totals. -/
theorem total_pickUp (near : ℕ → Bool) (index : ℕ) {drops : List Slot} {inv : Inventory}
    (hclean : ∀ slot ∈ inv.inv, slot.1 = 0 → slot.2 = 0) (hdrops : ∀ slot ∈ drops, slot.1 = 0 → slot.2 = 0)
    (hsmall : ∀ id, Recipe.total id inv.inv + Recipe.total id drops < 2 ^ 32) (id : UInt32) :
    Recipe.total id (pickUp near index drops inv).1.inv + Recipe.total id (pickUp near index drops inv).2 =
      Recipe.total id inv.inv + Recipe.total id drops := by
  induction drops generalizing index inv with
  | nil => rfl
  | cons drop drops ih =>
    have hrest := fun s hs => hdrops s (List.mem_cons_of_mem _ hs)
    have hstays : Recipe.total id (pickUp near (index + 1) drops inv).1.inv +
        Recipe.total id (drop :: (pickUp near (index + 1) drops inv).2) =
          Recipe.total id inv.inv + Recipe.total id (drop :: drops) := by
      have htotal := ih (index + 1) hclean hrest (fun x => by
        have := hsmall x
        rw [Recipe.total_cons'] at this
        omega)
      rw [Recipe.total_cons', Recipe.total_cons']
      omega
    rw [pickUp]
    split
    · cases hadd : inv.addToInventory drop.1 drop.2 with
      | none => exact hstays
      | some inv' =>
        have hdrop := hsmall drop.1
        rw [Recipe.total_cons', Slot.of_self] at hdrop
        have htotal := Inventory.total_addToInventory hclean (by omega) hadd
        have hdrop0 := hdrops drop (List.mem_cons_self ..)
        have hclean' : ∀ slot ∈ inv'.inv, slot.1 = 0 → slot.2 = 0 := by
          apply Inventory.forall_addToInventory hadd hclean
          · intro slot hslot hid h0
            simp only at h0
            rw [hclean slot hslot (hid.trans h0), hdrop0 h0, UInt32.add_zero]
          · exact hdrop0
        have hrec := ih (index + 1) hclean' hrest (fun x => by
          have := hsmall x
          rw [Recipe.total_cons'] at this
          rw [htotal x]
          show _ + drop.of x + _ < _
          omega)
        simp only
        rw [hrec, htotal, Recipe.total_cons']
        show _ + drop.of id + _ = _
        omega
    · exact hstays

/-! ### What all events keep -/

/-- What an event adds to the totals. -/
def Event.made (event : Event) (id : UInt32) : ℕ :=
  match event with
  | .craftOne recipe => recipe.result.of id
  | .craftAll recipe => recipe.result.of id
  | _ => 0

/-- Every slot has a property. -/
structure EverySlot (P : Slot → Prop) (g : Game) : Prop where
  /-- Those of the inventory. -/
  inventory : ∀ slot ∈ g.inventory.inv, P slot
  /-- Those of all chests. -/
  chests : ∀ spot chest, g.chestRegistry.lookup spot = some chest → ∀ slot ∈ chest.inv, P slot
  /-- That of the mouse. -/
  mouse : P g.mouseSlot
  /-- The items that lie around. -/
  drops : ∀ slot ∈ g.drops, P slot

/-- The totals, and what an event adds to them, are below `2 ^ 32`. -/
def Game.Within (g : Game) (event : Event) : Prop := ∀ id, g.total id + event.made id < 2 ^ 32

/-- A property of slots that all events keep; if `bounded`, where the totals are within bounds. -/
structure SlotRule (P : Slot → Prop) (bounded : Prop) : Prop where
  /-- Empty slots have it. -/
  empty : P (0, 0)
  /-- Taking one item out keeps it. -/
  useOne : ∀ id count, P (id, count) → id ≠ 0 ∨ 0 < count → count ≠ 1 → P (id, count - 1)
  /-- Putting items into a slot that is empty or holds the same keeps it. -/
  put : ∀ id count id' count', P (id, count) → P (id', count') → id' = 0 ∨ id' = id →
    (bounded → count'.toNat + count.toNat < 2 ^ 32) → P (id, count' + count)
  /-- What a player starts with has it. -/
  starting : ∀ slot ∈ STARTINGITEMS, P slot
  /-- What is crafted has it. -/
  result : ∀ recipe ∈ RECIPES, P recipe.result
  /-- What falls out of a block has it. -/
  block : ∀ word, word &&& Blocks.blockIdBits ≠ 0 → P (word &&& Blocks.blockIdBits, 1)
  /-- Apples have it if leaves do. -/
  apple : ∀ count, P (7, count) → P (32, count)
  /-- Where it matters, slots with no item are empty. -/
  clean : bounded → ∀ slot, P slot → slot.1 = 0 → slot.2 = 0

namespace SlotRule

variable {P : Slot → Prop} {bounded : Prop} {g g' : Game}

theorem addDrop (h : SlotRule P bounded) {drops : List Slot} (hdrops : ∀ slot ∈ drops, P slot) {id amt : UInt32}
    (hslot : P (id, amt)) (draw : UInt32) : ∀ slot ∈ Distgard.addDrop draw id amt drops, P slot := by
  intro slot hmem
  rcases List.mem_append.mp hmem with hmem | hmem
  · exact hdrops slot hmem
  · rw [List.mem_singleton.mp hmem]
    split
    · next hleaf => exact h.apple amt (hleaf.1 ▸ hslot)
    · exact hslot

theorem useOneSlot (h : SlotRule P bounded) {inv : Inventory} (hinv : ∀ slot ∈ inv.inv, P slot) (i : Fin ROWLENGTH)
    (hne : (inv.inv.getD i (0, 0)).1 ≠ 0) : ∀ slot ∈ (inv.useOne i (inv.inv.getD i (0, 0))).inv, P slot := by
  intro slot hmem
  rw [Inventory.useOne] at hmem
  simp only at hmem
  split at hmem
  · rcases List.mem_or_eq_of_mem_set hmem with hmem | rfl
    · exact hinv slot hmem
    · exact h.empty
  · next hone =>
    rcases List.mem_or_eq_of_mem_set hmem with hmem | rfl
    · exact hinv slot hmem
    · exact h.useOne _ _ (hinv _ (mem_getD (inv.lt_length_inv i))) (Or.inl hne) hone

theorem pickUp (h : SlotRule P bounded) (near : ℕ → Bool) (index : ℕ) {drops : List Slot} {inv : Inventory}
    (hinv : ∀ slot ∈ inv.inv, P slot) (hdrops : ∀ slot ∈ drops, P slot)
    (hsmall : bounded → ∀ id, Recipe.total id inv.inv + Recipe.total id drops < 2 ^ 32) :
    (∀ slot ∈ (Distgard.pickUp near index drops inv).1.inv, P slot) ∧
      ∀ slot ∈ (Distgard.pickUp near index drops inv).2, P slot := by
  induction drops generalizing index inv with
  | nil => exact ⟨hinv, hdrops⟩
  | cons drop drops ih =>
    have hdrop := hdrops drop (List.mem_cons_self ..)
    have hrest := fun s hs => hdrops s (List.mem_cons_of_mem _ hs)
    have hstays : (∀ slot ∈ (Distgard.pickUp near (index + 1) drops inv).1.inv, P slot) ∧
        ∀ slot ∈ drop :: (Distgard.pickUp near (index + 1) drops inv).2, P slot := by
      obtain ⟨hpicked, hleft⟩ := ih (index + 1) hinv hrest (fun hb x => by
        have := hsmall hb x
        rw [Recipe.total_cons'] at this
        omega)
      exact ⟨hpicked, List.forall_mem_cons.mpr ⟨hdrop, hleft⟩⟩
    rw [Distgard.pickUp]
    split
    · cases hadd : inv.addToInventory drop.1 drop.2 with
      | none => exact hstays
      | some inv' =>
        have hone : bounded → ∀ slot ∈ inv.inv, slot.1 = drop.1 → slot.2.toNat + drop.2.toNat < 2 ^ 32 := by
          intro hb slot hslot hid
          have hle := Slot.of_le_total hslot drop.1
          have := hsmall hb drop.1
          rw [Recipe.total_cons', Slot.of_self] at this
          rw [← hid, Slot.of_self, hid] at hle
          omega
        apply ih
        · apply Inventory.forall_addToInventory hadd hinv
          · intro slot hslot hid
            exact h.put _ _ slot.1 _ hdrop (hinv slot hslot) (Or.inr hid) (fun hb => hone hb slot hslot hid)
          · exact hdrop
        · exact hrest
        · intro hb x
          have hdropx := hsmall hb drop.1
          rw [Recipe.total_cons', Slot.of_self] at hdropx
          have hclean := fun slot hslot => h.clean hb slot (hinv slot hslot)
          rw [Inventory.total_addToInventory hclean (by omega) hadd]
          have := hsmall hb x
          rw [Recipe.total_cons'] at this
          show _ + drop.of x + _ < _
          omega
    · exact hstays

end SlotRule

/-- The place ray leaves the inventory or takes one item out of the selected slot. -/
theorem Game.PlaceRay.inventory {e : ℕ → Entropy} {aim : Aim} {g g' : Game} (h : g.PlaceRay e aim g') :
    g'.inventory = g.inventory ∨
      g.selected.1 ≠ 0 ∧ g'.inventory = g.inventory.useOne g.bumpedSlot g.selected := by
  have hfood : Blocks.isFood g.selected.1 = true → g.selected.1 ≠ 0 ∧ Blocks.isNonPlaceable g.selected.1 = true := by
    intro h
    rw [Blocks.isFood, List.contains_iff_mem, List.mem_cons, List.mem_singleton] at h
    rcases h with h | h
    · rw [h]
      decide
    · rw [h]
      decide
  have heat : ∀ g' : Game, g'.inventory = g.inventory → g'.bumpedSlot = g.bumpedSlot →
      (g'.eat g.selected).inventory = g.inventory ∨
        g.selected.1 ≠ 0 ∧ (g'.eat g.selected).inventory = g.inventory.useOne g.bumpedSlot g.selected := by
    intro g' hinv hbumped
    rw [inventory_eat, hinv, hbumped]
    split
    · next h => exact Or.inr ⟨(hfood h).1, rfl⟩
    · exact Or.inl rfl
  cases h with
  | air _ => exact heat g rfl rfl
  | door _ _ => exact heat _ rfl rfl
  | chest _ _ =>
    rw [inventory_updateInventory]
    exact heat _ rfl rfl
  | idle _ _ => exact heat g rfl rfl
  | blocked _ _ _ => exact Or.inl rfl
  | placed _ hputs _ =>
    by_cases hplaceable : Blocks.isNonPlaceable g.selected.1 = true
    · exact heat _ (if_neg (not_not_intro hplaceable)) rfl
    · right
      refine ⟨hputs.selected.1, ?_⟩
      rw [inventory_eat, if_neg fun h => hplaceable (hfood h).2]
      exact if_pos hplaceable

namespace Game

variable {e : ℕ → Entropy} {aim : Aim} {g g' : Game}

/-- The place ray leaves what chests hold, and what the mouse carries and what lies around. -/
theorem PlaceRay.chests (h : g.PlaceRay e aim g') : (∀ spot chest, g'.chestRegistry.lookup spot = some chest →
    chest = ChestInventory.empty ∨ g.chestRegistry.lookup spot = some chest) ∧
      g'.mouseSlot = g.mouseSlot ∧ g'.drops = g.drops := by
  cases h with
  | air _ =>
    simp only [chestRegistry_eat, mouseSlot_eat, drops_eat, and_self, and_true]
    exact fun _ _ => Or.inr
  | door _ _ =>
    simp only [chestRegistry_eat, mouseSlot_eat, drops_eat, and_self, and_true]
    exact fun _ _ => Or.inr
  | chest _ _ =>
    simp only [mouseSlot_updateInventory, drops_updateInventory, mouseSlot_eat, drops_eat, and_self, and_true]
    intro spot chest hlookup
    have hcases := lookup_updateInventory_cases _ hlookup
    rw [chestRegistry_eat] at hcases
    exact hcases
  | idle _ _ =>
    simp only [chestRegistry_eat, mouseSlot_eat, drops_eat, and_self, and_true]
    exact fun _ _ => Or.inr
  | blocked _ _ _ => exact ⟨fun _ _ => Or.inr, rfl, rfl⟩
  | placed _ _ _ =>
    simp only [chestRegistry_eat, mouseSlot_eat, drops_eat, and_self, and_true]
    exact fun _ _ => Or.inr

theorem openChest_of_lookup {chest : ChestInventory} (h : g.chestRegistry.lookup g.currentChest = some chest) :
    g.openChest = chest.inv := by rw [openChest, h, Option.elim_some]

/-- Drawing the slots leaves the totals. -/
theorem total_updateInventory (id : UInt32) : g.updateInventory.total id = g.total id := by
  have hchest : Recipe.total id g.updateInventory.openChest = Recipe.total id g.openChest := by
    rw [openChest, openChest, lookup_updateInventory, currentChest_updateInventory]
    cases hlookup : g.chestRegistry.lookup g.currentChest with
    | some chest => rw [if_neg fun h => by cases h.2]
    | none =>
      rw [if_pos ⟨rfl, rfl⟩, Option.elim_some, Option.elim_none]
      have hzero : ∀ n, Recipe.total id (List.replicate n (0, 0)) = 0 := by
        intro n
        induction n with
        | zero => rfl
        | succ n ih =>
          rw [List.replicate_succ, Recipe.total_cons', ih, Slot.of, UInt32.toNat_zero, ite_self]
      exact hzero _
  rw [total, total, hchest, inventory_updateInventory, mouseSlot_updateInventory, drops_updateInventory]

/-- A click puts the items of the slot and of the mouse into the slot and the mouse. -/
theorem of_clickSlot (slot mouseSlot : Slot)
    (hsmall : slot.1 = mouseSlot.1 → slot.2.toNat + mouseSlot.2.toNat < 2 ^ 32) (id : UInt32) :
    (clickSlot slot mouseSlot).1.of id + (clickSlot slot mouseSlot).2.1.of id = slot.of id + mouseSlot.of id := by
  rw [clickSlot]
  split
  · next h =>
    have hsum := Slot.of_add slot.1 (hsmall h) id
    have hmouse : mouseSlot.of id = Slot.of id (slot.1, mouseSlot.2) := by rw [h]
    have hzero : Slot.of id (0, 0) = 0 := by rw [Slot.of, UInt32.toNat_zero, ite_self]
    simp only
    rw [hsum, hzero, hmouse, Nat.add_zero]
  · exact Nat.add_comm _ _

/-- Where the totals are small, the slot of an item and the mouse that holds it add up. -/
theorem small_clickSlot {inv : List Slot} {i : ℕ} (hi : i < inv.length)
    (hle : ∀ id, Recipe.total id inv + g.mouseSlot.of id ≤ g.total id) (hsmall : ∀ id, g.total id < 2 ^ 32)
    (hid : (inv.getD i (0, 0)).1 = g.mouseSlot.1) :
    (inv.getD i (0, 0)).2.toNat + g.mouseSlot.2.toNat < 2 ^ 32 := by
  have hslot := Slot.of_le_total (mem_getD hi) g.mouseSlot.1
  have hbound := hle g.mouseSlot.1
  rw [← hid, Slot.of_self, hid] at hslot
  rw [Slot.of_self] at hbound
  have := hsmall g.mouseSlot.1
  omega

/-- A click on a slot of an inventory keeps what that and the mouse hold. -/
theorem total_set_clickSlot {inv : List Slot} {i : ℕ} (hi : i < inv.length)
    (hle : ∀ id, Recipe.total id inv + g.mouseSlot.of id ≤ g.total id) (hsmall : ∀ id, g.total id < 2 ^ 32)
    (id : UInt32) :
    Recipe.total id (inv.set i (clickSlot (inv.getD i (0, 0)) g.mouseSlot).1) +
      (clickSlot (inv.getD i (0, 0)) g.mouseSlot).2.1.of id = Recipe.total id inv + g.mouseSlot.of id := by
  have hset := Recipe.total_set hi id (clickSlot (inv.getD i (0, 0)) g.mouseSlot).1
  have hboth := of_clickSlot (inv.getD i (0, 0)) g.mouseSlot (small_clickSlot hi hle hsmall) id
  omega

/-- What the open chest holds is part of the total. -/
theorem total_chest_le {chest : ChestInventory} (h : g.chestRegistry.lookup g.currentChest = some chest) (id : UInt32) :
    Recipe.total id chest.inv + g.mouseSlot.of id ≤ g.total id := by
  rw [total, openChest_of_lookup h]
  omega

/-- What the inventory holds is part of the total. -/
theorem total_inv_le (g : Game) (id : UInt32) : Recipe.total id g.inventory.inv + g.mouseSlot.of id ≤ g.total id := by
  rw [total]
  omega

theorem Click.total {moused : SlotIndexType} {clicked : Game} (h : g.Click moused clicked)
    (hsmall : ∀ id, g.total id < 2 ^ 32) (id : UInt32) : clicked.total id = g.total id := by
  cases h with
  | @chest i chest hlookup =>
    have hi : (i : ℕ) < chest.inv.length := chest.lt_length_inv i
    have hkeep := total_set_clickSlot hi (total_chest_le hlookup) hsmall id
    rw [Game.total, openChest_of_lookup (Finmap.lookup_insert _), Game.total, openChest_of_lookup hlookup,
      ChestInventory.setSlot]
    dsimp only
    omega
  | @inv i =>
    have hi : (i : ℕ) < g.inventory.inv.length := g.inventory.lt_length_inv i
    have hkeep := total_set_clickSlot hi g.total_inv_le hsmall id
    have hopen : ∀ inventory mouseSlot, openChest { g with inventory := inventory, mouseSlot := mouseSlot } =
        g.openChest := fun _ _ => rfl
    rw [Game.total, hopen, Game.total, Inventory.setSlot]
    dsimp only
    omega

/-- **Clicks** keep the totals. -/
theorem total_mouseButton (moused : SlotIndexType) (hsmall : ∀ id, g.total id < 2 ^ 32) (id : UInt32) :
    (g.mouseButton moused).total id = g.total id := by
  rcases mouseButton_cases moused g with hsame | ⟨-, clicked, hclick, hdone⟩
  · rw [hsame]
  · have hkeep := hclick.total hsmall id
    rcases hdone with hdone | hdone
    · rw [hdone, hkeep]
    · rw [hdone, total_updateInventory, hkeep]

/-- Pickups keep the totals of a game. -/
theorem total_updateDrops (near : ℕ → Bool) (hinv : ∀ slot ∈ g.inventory.inv, slot.1 = 0 → slot.2 = 0)
    (hdrops : ∀ slot ∈ g.drops, slot.1 = 0 → slot.2 = 0) (hsmall : ∀ id, g.total id < 2 ^ 32) (id : UInt32) :
    (g.updateDrops near).total id = g.total id := by
  have hpick := total_pickUp near 0 hinv hdrops (fun id => by
    have := hsmall id
    rw [total] at this
    omega) id
  have hopen : ∀ inventory drops, openChest { g with inventory := inventory, drops := drops } = g.openChest :=
    fun _ _ => rfl
  rw [updateDrops, total, total, hopen]
  dsimp only
  omega

end Game

namespace SlotRule

variable {P : Slot → Prop} {bounded : Prop} {g g' : Game}

theorem placeRay (h : SlotRule P bounded) (hg : EverySlot P g) {e : ℕ → Entropy} {aim : Aim}
    (hray : g.PlaceRay e aim g') : EverySlot P g' := by
  obtain ⟨hchests, hmouse, hdrops⟩ := hray.chests
  constructor
  · rcases hray.inventory with hinv | ⟨hne, hinv⟩
    · rw [hinv]
      exact hg.inventory
    · rw [hinv]
      exact h.useOneSlot hg.inventory _ hne
  · intro spot chest hlookup
    rcases hchests spot chest hlookup with rfl | hold
    · intro slot hslot
      rw [(List.mem_replicate.mp hslot).2]
      exact h.empty
    · exact hg.chests spot chest hold
  · rw [hmouse]
    exact hg.mouse
  · rw [hdrops]
    exact hg.drops

theorem breakRay (h : SlotRule P bounded) (hg : EverySlot P g) {e : ℕ → Entropy} {draw : UInt32} {aim : Aim}
    (hray : g.CastBreakRay e draw aim g') : EverySlot P g' := by
  have hblock : ∀ word, word ≠ 0 → word &&& Blocks.blockIdBits = word → P (word, 1) := by
    intro word hne hword
    have := h.block word (by rw [hword]; exact hne)
    rw [hword] at this
    exact this
  rw [Game.CastBreakRay] at hray
  split at hray
  · rw [hray]
    exact hg
  · next blockHit _ =>
    dsimp only at hray
    split at hray
    · obtain ⟨k, cs, set, -, rfl⟩ := hray
      exact ⟨hg.inventory, hg.chests, hg.mouse, h.addDrop hg.drops (hblock 17 (by decide) rfl) draw⟩
    · split at hray
      · subst hray
        exact ⟨hg.inventory, hg.chests, hg.mouse, h.addDrop hg.drops (hblock 19 (by decide) rfl) draw⟩
      · subst hray
        refine ⟨hg.inventory, hg.chests, hg.mouse, ?_⟩
        dsimp only
        split
        · next hne => exact h.addDrop hg.drops (h.block _ hne) draw
        · exact hg.drops

theorem updateInventory (h : SlotRule P bounded) (hg : EverySlot P g) : EverySlot P g.updateInventory := by
  constructor
  · rw [Game.inventory_updateInventory]
    exact hg.inventory
  · intro spot chest hlookup
    rcases Game.lookup_updateInventory_cases g hlookup with rfl | hold
    · intro slot hslot
      rw [(List.mem_replicate.mp hslot).2]
      exact h.empty
    · exact hg.chests spot chest hold
  · rw [Game.mouseSlot_updateInventory]
    exact hg.mouse
  · rw [Game.drops_updateInventory]
    exact hg.drops

/-- A click leaves slots that have the property. -/
theorem clickSlot (h : SlotRule P bounded) {slot mouseSlot : Slot} (hslot : P slot) (hmouse : P mouseSlot)
    (hsmall : bounded → slot.1 = mouseSlot.1 → slot.2.toNat + mouseSlot.2.toNat < 2 ^ 32) :
    P (Game.clickSlot slot mouseSlot).1 ∧ P (Game.clickSlot slot mouseSlot).2.1 := by
  rw [Game.clickSlot]
  split
  · next hid =>
    have hpair : P (slot.1, mouseSlot.2) := by
      rw [hid]
      exact hmouse
    exact ⟨h.put slot.1 mouseSlot.2 slot.1 slot.2 hpair hslot (Or.inr rfl) (fun hb => hsmall hb hid), h.empty⟩
  · exact ⟨hmouse, hslot⟩

theorem set_clickSlot (h : SlotRule P bounded) {inv : List Slot} {i : ℕ} (hi : i < inv.length)
    (hinv : ∀ slot ∈ inv, P slot) (hmouse : P g.mouseSlot)
    (hle : ∀ id, Recipe.total id inv + g.mouseSlot.of id ≤ g.total id) (hsmall : bounded → ∀ id, g.total id < 2 ^ 32) :
    (∀ slot ∈ inv.set i (Game.clickSlot (inv.getD i (0, 0)) g.mouseSlot).1, P slot) ∧
      P (Game.clickSlot (inv.getD i (0, 0)) g.mouseSlot).2.1 := by
  obtain ⟨hslot, hmouse⟩ := h.clickSlot (hinv _ (mem_getD hi)) hmouse
    (fun hb => Game.small_clickSlot hi hle (hsmall hb))
  refine ⟨?_, hmouse⟩
  intro slot hmem
  rcases List.mem_or_eq_of_mem_set hmem with hmem | rfl
  · exact hinv slot hmem
  · exact hslot

theorem click (h : SlotRule P bounded) (hg : EverySlot P g) {moused : SlotIndexType} {clicked : Game}
    (hclick : g.Click moused clicked) (hsmall : bounded → ∀ id, g.total id < 2 ^ 32) : EverySlot P clicked := by
  cases hclick with
  | @chest i chest hlookup =>
    have hi : (i : ℕ) < chest.inv.length := chest.lt_length_inv i
    obtain ⟨hslots, hmouse⟩ :=
      h.set_clickSlot hi (hg.chests _ chest hlookup) hg.mouse (Game.total_chest_le hlookup) hsmall
    refine ⟨hg.inventory, ?_, hmouse, hg.drops⟩
    intro spot chest' hlookup'
    rw [HashMap.lookup_insert'] at hlookup'
    split at hlookup'
    · cases hlookup'
      exact hslots
    · exact hg.chests spot chest' hlookup'
  | @inv i =>
    have hi : (i : ℕ) < g.inventory.inv.length := g.inventory.lt_length_inv i
    obtain ⟨hslots, hmouse⟩ := h.set_clickSlot hi hg.inventory hg.mouse g.total_inv_le hsmall
    exact ⟨hslots, hg.chests, hmouse, hg.drops⟩

theorem mouseButton (h : SlotRule P bounded) (hg : EverySlot P g) (moused : SlotIndexType)
    (hsmall : bounded → ∀ id, g.total id < 2 ^ 32) : EverySlot P (g.mouseButton moused) := by
  rcases Game.mouseButton_cases moused g with hsame | ⟨-, clicked, hclick, hdone⟩
  · rw [hsame]
    exact hg
  · have hclicked := h.click hg hclick hsmall
    rcases hdone with hdone | hdone
    · rw [hdone]
      exact hclicked
    · rw [hdone]
      exact h.updateInventory hclicked

theorem takeDamage (h : SlotRule P bounded) (hg : EverySlot P g) (draws : ℕ → UInt32) (amount : UInt8) :
    EverySlot P (g.takeDamage draws amount) := by
  rw [Game.takeDamage]
  split
  · refine ⟨h.starting, hg.chests, hg.mouse, ?_⟩
    apply foldl_induct (fun drops : List Slot => ∀ slot ∈ drops, P slot)
    · rintro drops ⟨slot, i⟩ hmem hdrops
      apply h.addDrop hdrops
      apply hg.inventory
      exact (List.mem_zipIdx hmem).2.2 ▸ List.getElem_mem _
    · exact hg.drops
  · exact ⟨hg.inventory, hg.chests, hg.mouse, hg.drops⟩

/-- The property, and room for one result more in every slot that may take it, are kept by
crafting. -/
theorem keeps (h : SlotRule P bounded) {recipe : Recipe} (hrecipe : recipe ∈ RECIPES) :
    recipe.Keeps fun slot => P slot ∧
      (bounded → slot.1 = 0 ∨ slot.1 = recipe.result.1 → slot.2.toNat + recipe.result.2.toNat < 2 ^ 32) := by
  have hresult : recipe.result.2.toNat ≤ 10 := by
    have hall : ∀ recipe ∈ RECIPES, recipe.result.2.toNat ≤ 10 := by decide
    exact hall recipe hrecipe
  constructor
  · exact ⟨h.empty, fun _ _ => by simp only [UInt32.toNat_zero]; omega⟩
  · rintro id count ⟨hslot, hroom⟩ hpos hne
    refine ⟨h.useOne id count hslot (Or.inr hpos) (fun hone => hne (by rw [hone]; rfl)), ?_⟩
    intro hb hid
    have hone : (1 : UInt32) ≤ count := UInt32.le_iff_toNat_le.mpr (Nat.succ_le_of_lt (UInt32.lt_iff_toNat_lt.mp hpos))
    have hle : (count - 1).toNat ≤ count.toNat := by
      rw [UInt32.toNat_sub_of_le _ _ hone]
      exact Nat.sub_le _ _
    have := hroom hb hid
    simp only at this ⊢
    omega
  · rintro slot ⟨hslot, hroom⟩ hid hle
    have hsmall : (slot.2 + recipe.result.2).toNat ≤ 999 := UInt32.le_iff_toNat_le.mp hle
    refine ⟨h.put _ _ slot.1 _ (h.result recipe hrecipe) hslot hid (fun hb => hroom hb hid), ?_⟩
    intro _ _
    simp only
    omega

theorem roomy (h : SlotRule P bounded) (hg : EverySlot P g) {recipe : Recipe}
    (hsmall : bounded → ∀ id, g.total id + recipe.result.of id < 2 ^ 32) :
    ∀ slot ∈ g.inventory.inv, P slot ∧
      (bounded → slot.1 = 0 ∨ slot.1 = recipe.result.1 → slot.2.toNat + recipe.result.2.toNat < 2 ^ 32) := by
  intro slot hslot
  refine ⟨hg.inventory slot hslot, ?_⟩
  rintro hb (hid | hid)
  · rw [h.clean hb slot (hg.inventory slot hslot) hid, UInt32.toNat_zero, Nat.zero_add]
    exact recipe.result.2.toNat_lt
  · have hle := Slot.of_le_total hslot recipe.result.1
    have := hsmall hb recipe.result.1
    rw [Game.total, Slot.of_self] at this
    rw [← hid, Slot.of_self, hid] at hle
    omega

/-- **Every event** keeps the property, where the totals are within bounds if that matters. -/
theorem happens (h : SlotRule P bounded) (hg : EverySlot P g) {event : Event} (hwithin : bounded → g.Within event)
    (hhappens : g.Happens event g') : EverySlot P g' := by
  have hsmall : bounded → ∀ id, g.total id < 2 ^ 32 := by
    intro hb id
    have := hwithin hb id
    omega
  cases event with
  | castPlaceRay e aim =>
    have hray := Game.castPlaceRay_spec e aim g
    rw [← (show g' = _ from hhappens)] at hray
    exact h.placeRay hg hray
  | castBreakRay e draw aim => exact h.breakRay hg hhappens
  | mouseButton moused =>
    rw [show g' = _ from hhappens]
    exact h.mouseButton hg moused hsmall
  | exitMenu =>
    rw [show g' = _ from hhappens]
    exact ⟨hg.inventory, hg.chests, hg.mouse, hg.drops⟩
  | scroll invrowchange =>
    rw [show g' = _ from hhappens]
    exact ⟨hg.inventory, hg.chests, hg.mouse, hg.drops⟩
  | updateInventory =>
    rw [show g' = _ from hhappens]
    exact h.updateInventory hg
  | updateDrops near =>
    rw [show g' = _ from hhappens]
    obtain ⟨hinv, hdrops⟩ := h.pickUp near 0 hg.inventory hg.drops (fun hb id => by
      have := hsmall hb id
      rw [Game.total] at this
      omega)
    exact ⟨hinv, hg.chests, hg.mouse, hdrops⟩
  | craftOne recipe =>
    obtain ⟨hrecipe, rfl⟩ := hhappens
    refine ⟨?_, hg.chests, hg.mouse, hg.drops⟩
    intro slot hslot
    exact ((h.keeps hrecipe).craftOne (h.roomy hg hwithin) slot hslot).1
  | craftAll recipe =>
    obtain ⟨hrecipe, inv, hall, rfl⟩ := hhappens
    refine ⟨?_, hg.chests, hg.mouse, hg.drops⟩
    intro slot hslot
    exact ((h.keeps hrecipe).craftsAll hall (h.roomy hg hwithin) slot hslot).1
  | takeDamage draws amount =>
    rw [show g' = _ from hhappens]
    exact h.takeDamage hg draws amount

end SlotRule

end Distgard
