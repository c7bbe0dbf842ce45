import Distgard.Crafting
import Mathlib.Data.List.TakeWhile

/-!
# Crafting once

Crafting once decides everything on a copy of the inventory before it writes anything. Whether
that makes it all or nothing rests on the decisions being right: they are made with 32-bit sums.
A slot whose count overflows with the result seems to have room, and ingredients whose sum
overflows seem to be missing.

## What is proved

* `craftOne_atomic_iff` — a craft leaves the inventory for a reason, or takes the ingredients and
  gives the result, exactly when it neither misjudges nor misplaces anything.
* `craftOne_overflows` — with `2 ^ 32 - 1` of the result in a slot, a craft loses them.
-/

namespace Distgard.Recipe

open Lib

variable (recipe : Recipe)

/-- The slots that are left when the ingredients have been taken out. -/
def left (inv : List Slot) : List (UInt32 × ℕ) := Stock.take 0 recipe.needed (stock inv)

/-- The slot can take the result within the stack limit. -/
def CanTake (slot : UInt32 × ℕ) : Prop := Stock.Takes 0 recipe.result.1 slot ∧ slot.2 + recipe.result.2.toNat ≤ 999

instance (slot : UInt32 × ℕ) : Decidable (recipe.CanTake slot) := inferInstanceAs (Decidable (_ ∧ _))

/-- An ingredient is missing. -/
def Lacks (inv : List Slot) : Prop := ∃ req ∈ recipe.ingredients, total req.1 inv < req.2.toNat

/-- After the ingredients have been taken out, no slot can take the result. -/
def NoRoom (inv : List Slot) : Prop := ∀ slot ∈ recipe.left inv, ¬ recipe.CanTake slot

/-- How many of an item the recipe gives. -/
def made (id : UInt32) : ℕ := if recipe.result.1 = id then recipe.result.2.toNat else 0

/-- A craft is all or nothing: it leaves the inventory, for want of an ingredient or of room, or
it takes exactly the ingredients and gives exactly the result; and no count falls below zero,
that is, what is left in a slot is no more than there was. -/
def Atomic (inv : Inventory) : Prop :=
  (recipe.craftOne inv = inv ∧ (recipe.Lacks inv.inv ∨ recipe.NoRoom inv.inv) ∨
    ∀ id, total id (recipe.craftOne inv).inv + recipe.needed id = total id inv.inv + recipe.made id) ∧
  List.Forall₂ (fun left slot => left.2 ≤ slot.2) (stock (recipe.subtractIngredients inv.inv)) (stock inv.inv)

/-- The ingredients are there, but the sum of one overflows to less than its amount, although
there is room for the result, and the recipe does something. -/
def Misjudges (inv : List Slot) : Prop :=
  (∃ req ∈ recipe.ingredients, total req.1 inv % 2 ^ 32 < req.2.toNat) ∧ ¬ recipe.Lacks inv ∧ ¬ recipe.NoRoom inv ∧
    ∃ id, recipe.needed id ≠ recipe.made id

/-- The sums of the ingredients suffice, and a slot overflows with the result before any slot
that can take it. -/
def Misplaces (inv : List Slot) : Prop :=
  (∀ req ∈ recipe.ingredients, req.2.toNat ≤ total req.1 inv % 2 ^ 32) ∧
    (∃ slot ∈ recipe.left inv, recipe.Overflows slot) ∧ ∀ slot ∈ recipe.sound (recipe.left inv), ¬ recipe.CanTake slot

variable {recipe}

/-- No slot is found where none can take the result and none overflows. -/
theorem placeResult_eq_none_iff (inv : List Slot) :
    recipe.placeResult inv = none ↔ ∀ slot ∈ stock inv, ¬ (recipe.CanTake slot ∨ recipe.Overflows slot) := by
  induction inv with
  | nil => simp [placeResult, resultslot]
  | cons slot inv ih =>
    rw [placeResult_cons, stock_cons, List.forall_mem_cons]
    have hfound := found_iff recipe slot
    split
    · next h => simp [CanTake, hfound.mp h]
    · next h =>
      rw [Option.map_eq_none_iff, ih, and_iff_right]
      exact fun hslot => h (hfound.mpr hslot)

theorem stock_left (inv : List Slot) : stock (recipe.subtractIngredients inv) = recipe.left inv :=
  stock_subtractIngredients recipe inv

/-- A craft that places the result adds it to what is left, or loses `2 ^ 32` of it or more. -/
theorem total_placed {inv inv' : List Slot} (hclean : recipe.Clean inv)
    (hreqs : ∀ id, recipe.needed id ≤ total id inv)
    (hplace : recipe.placeResult (recipe.subtractIngredients inv) = some inv') :
    ((∃ slot ∈ recipe.sound (recipe.left inv), recipe.CanTake slot) ∧
      ∀ id, total id inv' + recipe.needed id = total id inv + recipe.made id) ∨
    ((∀ slot ∈ recipe.sound (recipe.left inv), ¬ recipe.CanTake slot) ∧
      ∃ lost, 2 ^ 32 ≤ lost ∧ ∀ id, total id inv' + recipe.needed id + (if recipe.result.1 = id then lost else 0) =
        total id inv + recipe.made id) := by
  have hadd : ∀ (n : UInt32 → ℕ), (∀ id, total id inv' + n id = total id (recipe.subtractIngredients inv) +
      if recipe.result.1 = id then recipe.result.2.toNat else 0) →
      ∀ id, total id inv' + recipe.needed id + n id = total id inv + recipe.made id := by
    intro n h id
    have hid := h id
    have hle := hreqs id
    rw [total_subtractIngredients] at hid
    rw [made]
    omega
  by_cases hroom : ∃ slot ∈ recipe.sound (recipe.left inv), recipe.CanTake slot
  · left
    refine ⟨hroom, ?_⟩
    have hput : (Stock.put 0 recipe.result.1 recipe.result.2.toNat 999
        (recipe.sound (stock (recipe.subtractIngredients inv)))).isSome := by
      rw [stock_left, Option.isSome_iff_ne_none, Ne, Stock.put_eq_none_iff]
      obtain ⟨slot, hslot, htakes⟩ := hroom
      exact fun h => h slot hslot htakes
    obtain ⟨inv'', hplace', -, -, htotal⟩ := place_of_room recipe hclean.subtractIngredients hput
    rw [hplace, Option.some.injEq] at hplace'
    subst hplace'
    exact hadd (fun _ => 0) htotal
  · right
    push Not at hroom
    refine ⟨hroom, ?_⟩
    have hspec := placeResult_spec recipe (recipe.subtractIngredients inv) hclean.subtractIngredients
    rw [stock_left, (Stock.put_eq_none_iff _).mpr hroom] at hspec
    obtain ⟨-, lost, hlost, htotal⟩ := hspec inv' hplace
    exact ⟨lost, hlost, hadd (fun id => if recipe.result.1 = id then lost else 0) htotal⟩

/-- A craft that finds the ingredients is all or nothing unless it misplaces the result. -/
theorem atomic_iff_of_hasReqs {inv : Inventory} (hclean : recipe.Clean inv.inv)
    (hdistinct : (recipe.ingredients.map Prod.fst).Nodup) (hreqs : recipe.hasReqs inv.inv = true) :
    (recipe.craftOne inv = inv ∧ (recipe.Lacks inv.inv ∨ recipe.NoRoom inv.inv) ∨
      ∀ id, total id (recipe.craftOne inv).inv + recipe.needed id = total id inv.inv + recipe.made id) ↔
    ¬ recipe.Misplaces inv.inv := by
  have hcraft := (craftOne_eq recipe inv).2 hreqs
  have hsums := (hasReqs_iff_forall recipe inv.inv).mp hreqs
  have hneeded : ∀ id, recipe.needed id ≤ total id inv.inv := fun id =>
    Nat.le_trans ((hasReqs_iff recipe hdistinct _).mp hreqs id) (Nat.mod_le _ _)
  cases hplace : recipe.placeResult (recipe.subtractIngredients inv.inv) with
  | none =>
    have hnone := (placeResult_eq_none_iff _).mp hplace
    rw [stock_left] at hnone
    apply iff_of_true
    · exact .inl ⟨hcraft.1 hplace, .inr fun slot hslot htakes => hnone slot hslot (.inl htakes)⟩
    · rintro ⟨-, ⟨slot, hslot, hover⟩, -⟩
      exact hnone slot hslot (.inr hover)
  | some inv' =>
    have hinv' := (hcraft.2 inv' hplace).1
    rcases total_placed hclean hneeded hplace with ⟨⟨slot, hslot, htakes⟩, htotal⟩ | ⟨hnone, lost, hlost, htotal⟩
    · apply iff_of_true
      · exact .inr fun id => by rw [hinv', htotal]
      · exact fun h => h.2.2 slot hslot htakes
    · have hlt := recipe.result.2.toNat_lt
      have hresult := htotal recipe.result.1
      rw [if_pos rfl, made, if_pos rfl] at hresult
      apply iff_of_false
      · rintro (⟨hsame, -⟩ | hsame)
        · -- more is lost than a count can hold, so the totals cannot be the old ones
          rw [← hinv', hsame] at hresult
          omega
        · have := hsame recipe.result.1
          rw [hinv', made, if_pos rfl] at this
          omega
      · have hover : ∃ slot ∈ recipe.left inv.inv, recipe.Overflows slot := by
          by_contra hsound
          push Not at hsound
          have hall : recipe.sound (recipe.left inv.inv) = recipe.left inv.inv :=
            List.takeWhile_eq_self_iff.mpr fun slot hslot => by simp [hsound slot hslot]
          have hnone' : recipe.placeResult (recipe.subtractIngredients inv.inv) = none := by
            rw [placeResult_eq_none_iff, stock_left]
            rintro slot hslot (htakes | hover)
            · exact hnone slot (hall.symm ▸ hslot) htakes
            · exact hsound slot hslot hover
          rw [hnone'] at hplace
          cases hplace
        exact not_not_intro ⟨hsums, hover, hnone⟩

variable (recipe) in
/-- **Crafting once is all or nothing** exactly when it neither misjudges what there is nor
misplaces the result: from every inventory whose slots hold an item exactly when they hold some
of it, with distinct ingredients. -/
theorem craftOne_atomic_iff (inv : Inventory) (hslots : ∀ slot ∈ inv.inv, slot.1 = 0 ↔ slot.2 = 0)
    (hdistinct : (recipe.ingredients.map Prod.fst).Nodup) :
    recipe.Atomic inv ↔ ¬ recipe.Misjudges inv.inv ∧ ¬ recipe.Misplaces inv.inv := by
  have hclean : recipe.Clean inv.inv := by
    intro _ slot hslot h0
    obtain ⟨slot, hmem, rfl⟩ := List.mem_map.mp hslot
    simp only at h0 ⊢
    rw [(hslots slot hmem).mp h0, UInt32.toNat_zero]
  have hle : List.Forall₂ (fun left slot => left.2 ≤ slot.2) (stock (recipe.subtractIngredients inv.inv))
      (stock inv.inv) := by
    rw [stock_left]
    exact Stock.take_le 0 recipe.needed (stock inv.inv)
  rw [Atomic, and_iff_left hle]
  cases hreqs : recipe.hasReqs inv.inv with
  | true =>
    have hjudges : ¬ recipe.Misjudges inv.inv := by
      rintro ⟨⟨req, hmem, hlt⟩, -⟩
      exact Nat.not_lt.mpr ((hasReqs_iff_forall recipe inv.inv).mp hreqs req hmem) hlt
    rw [and_iff_right hjudges]
    exact atomic_iff_of_hasReqs hclean hdistinct hreqs
  | false =>
    have hmissing : ∃ req ∈ recipe.ingredients, total req.1 inv.inv % 2 ^ 32 < req.2.toNat := by
      by_contra h
      push Not at h
      rw [(hasReqs_iff_forall recipe inv.inv).mpr h] at hreqs
      cases hreqs
    have hplaces : ¬ recipe.Misplaces inv.inv := by
      rintro ⟨hsums, -⟩
      obtain ⟨req, hmem, hlt⟩ := hmissing
      exact Nat.not_lt.mpr (hsums req hmem) hlt
    rw [and_iff_left hplaces, (craftOne_eq recipe inv).1 hreqs]
    simp only [true_and, Nat.add_left_cancel_iff]
    constructor
    · rintro (hreason | hsame) ⟨-, hthere, hroom, id, hne⟩
      · exact hreason.elim hthere hroom
      · exact hne (hsame id)
    · intro h
      by_contra hreason
      push Not at hreason
      exact h ⟨hmissing, hreason.1.1, hreason.1.2, hreason.2⟩

/-- Crafting planks from one of two logs is all or nothing. -/
theorem craftOne_atomic_twoLogs : planks.Atomic twoLogs := by
  apply (craftOne_atomic_iff planks twoLogs (by simp [twoLogs]) (by decide)).mpr
  constructor
  · rintro ⟨⟨req, hmem, hlt⟩, -⟩
    obtain rfl := List.mem_singleton.mp hmem
    exact absurd hlt (by decide)
  · rintro ⟨-, -, hroom⟩
    exact hroom (0, 0) (by decide) (by decide)

/-- A log, and as many planks as a slot can count. -/
def overfull : Inventory :=
  ⟨false, [(10, 4294967292), (6, 1), (0, 0), (0, 0), (0, 0), (0, 0), (0, 0), (0, 0)], rfl⟩

/-- **A craft loses the planks there were** when their count overflows. -/
theorem craftOne_overflows :
    (∀ slot ∈ overfull.inv, slot.1 = 0 ↔ slot.2 = 0) ∧ (planks.ingredients.map Prod.fst).Nodup ∧
      ¬ planks.Atomic overfull := by
  have hclean : planks.Clean overfull.inv := by
    intro _
    unfold Stock.Clean
    decide
  have hmisplaces : planks.Misplaces overfull.inv := by
    refine ⟨?_, ⟨(10, 4294967292), by decide, by decide⟩, by decide⟩
    rintro req hmem
    obtain rfl := List.mem_singleton.mp hmem
    decide
  refine ⟨by simp [overfull], by decide, fun h => ?_⟩
  exact (atomic_iff_of_hasReqs hclean (by decide) (by decide)).mp h.1 hmisplaces

end Distgard.Recipe
