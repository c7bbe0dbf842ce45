import Distgard.Inventory
import Distgard.Lib.Loop
import Distgard.Lib.Stock
import Mathlib.Data.List.Basic

/-!
# Crafting

A recipe turns ingredients into a result. Crafting once works on a copy of the inventory:
it takes the ingredients out, looks for a slot that is empty or holds the result and has
room for it, and only then changes the inventory. Crafting all repeats this on one copy, and
stops when the ingredients are missing or no slot is found; what it had taken out in the
last round is then gone.

## The model

Counts are 32-bit words and wrap around, in the sums of the ingredients as in the search for
a slot. The loops over the slots are recursions over their list. Crafting all may go on
forever, and is a relation (`CraftsAll`).

## What is proved

* `stock_subtractIngredients` — the ingredients are taken out of the first slots that have
  them, and out of nothing else.
* `craftAll_refines_iff` — crafting all does what repeated crafting does exactly when the
  results of every number of crafts that the ingredients allow have room. Where the result is
  an ingredient itself, the crafts have to come to an end one by one.
* `craftAll_losesIngredients` — with a full inventory crafting all loses ingredients.
-/

namespace Distgard

open Lib

/-- A recipe. -/
structure Recipe where
  /-- The ingredients, and how many of them. -/
  ingredients : List Slot
  /-- The result, and how many of it. -/
  result : Slot

namespace Recipe

variable (recipe : Recipe)

/-- How many of an item the slots hold, as it is computed. -/
def amt (id : UInt32) (inv : List Slot) : UInt32 :=
  inv.foldl (fun amt slot => if slot.1 = id then amt + slot.2 else amt) 0

/-- The slots have the ingredients. -/
def hasReqs (inv : List Slot) : Bool := recipe.ingredients.all fun req => !decide (amt req.1 inv < req.2)

/-- Take one item out of a slot, while there is one and more are needed. -/
def takeUnit (need : UInt32) (s : Slot × UInt32) : Option (Slot × UInt32) :=
  if 0 < s.1.2 ∧ s.2 < need then
    some (if s.1.2 - 1 = 0 then (0, 0) else (s.1.1, s.1.2 - 1), s.2 + 1)
  else none

theorem takeUnit_decreases (need : UInt32) : Loop.Decreases (takeUnit need) fun s => s.1.2.toNat := by
  rintro ⟨⟨id, count⟩, taken⟩ s' h
  rw [takeUnit] at h
  split at h
  · next hpos =>
    have hcount : 0 < count.toNat := UInt32.lt_iff_toNat_lt.mp hpos.1
    cases h
    simp only
    split
    · exact hcount
    · have hle : (1 : UInt32) ≤ count := UInt32.le_iff_toNat_le.mpr hcount
      have hsub : (count - 1).toNat = count.toNat - 1 := UInt32.toNat_sub_of_le _ _ hle
      simp only [hsub]
      omega
  · cases h

/-- Take what is still needed out of a slot. -/
def takeUnits (need : UInt32) (slot : Slot) (amt : UInt32) : Slot × UInt32 :=
  Loop.exec (takeUnit need) (fun s => s.1.2.toNat) (takeUnit_decreases need) (slot, amt)

/-- Take an ingredient out of the slots, of which `amt` have been taken already. -/
def takeIngredient (req : Slot) : UInt32 → List Slot → List Slot
  | _, [] => []
  | amt, slot :: inv =>
    if slot.1 = req.1 then
      let (slot, amt) := takeUnits req.2 slot amt
      slot :: if req.2 ≤ amt then inv else takeIngredient req amt inv
    else slot :: takeIngredient req amt inv

/-- Take the ingredients out of the slots. -/
def subtractIngredients (inv : List Slot) : List Slot :=
  recipe.ingredients.foldl (fun inv req => takeIngredient req 0 inv) inv

/-- The first slot that is empty or holds the result, and has room for it. -/
def resultslot (inv : List Slot) : Option ℕ :=
  inv.findIdx? fun slot => (slot.1 = 0 ∨ slot.1 = recipe.result.1) ∧ slot.2 + recipe.result.2 ≤ 999

/-- Put the result into a slot. -/
def putResult (slot : ℕ) (inv : List Slot) : List Slot :=
  inv.set slot (recipe.result.1, (inv.getD slot (0, 0)).2 + recipe.result.2)

/-- Craft once on a copy of the inventory, and say whether more may be possible. -/
def craftInLocalInv (s : List Slot × Bool) : List Slot × Bool :=
  if recipe.hasReqs s.1 then
    let invclone := recipe.subtractIngredients s.1
    match recipe.resultslot invclone with
    | some slot => (recipe.putResult slot invclone, s.2)
    | none => (invclone, false)
  else (s.1, false)

/-- One round of crafting all. -/
def craftRound (s : List Slot × Bool) : Option (List Slot × Bool) := if s.2 then some (recipe.craftInLocalInv s) else none

/-- Set the slots that differ. -/
def setDiffering (new : List Slot) (inv : Inventory) : Inventory :=
  new.zipIdx.foldl (fun acc s => if inv.inv[s.2]? ≠ some s.1 then acc.setInInventory s.2 s.1.1 s.1.2 else acc) inv

/-- Craft once. -/
def craftOne (inv : Inventory) : Inventory :=
  if recipe.hasReqs inv.inv then
    let invclone := recipe.subtractIngredients inv.inv
    match recipe.resultslot invclone with
    | some slot => (setDiffering invclone inv).setInInventory slot recipe.result.1
        ((invclone.getD slot (0, 0)).2 + recipe.result.2)
    | none => inv
  else inv

/-- Crafting all ends with an inventory. -/
def CraftsAll (inv inv' : Inventory) : Prop :=
  ∃ k newinv, Loop.Ends recipe.craftRound k (inv.inv, true) (newinv, false) ∧
    inv' = if newinv ≠ inv.inv then setDiffering newinv inv else inv

/-- Craft once more, until that changes nothing. -/
def craftAgain (inv : Inventory) : Option Inventory :=
  if recipe.craftOne inv = inv then none else some (recipe.craftOne inv)

/-! ### What the loops compute -/

/-- The slots as a stock. -/
def stock (inv : List Slot) : List (UInt32 × ℕ) := inv.map fun slot => (slot.1, slot.2.toNat)

/-- How many of an item the slots hold. -/
def total (id : UInt32) (inv : List Slot) : ℕ := Stock.total id (stock inv)

@[simp] theorem stock_nil : stock [] = [] := rfl

@[simp] theorem stock_cons (slot : Slot) (inv : List Slot) : stock (slot :: inv) = (slot.1, slot.2.toNat) :: stock inv :=
  rfl

theorem stock_injective : Function.Injective stock := by
  apply List.map_injective_iff.mpr
  rintro ⟨id, count⟩ ⟨id', count'⟩ h
  rw [Prod.mk.injEq] at h ⊢
  exact ⟨h.1, UInt32.toNat_inj.mp h.2⟩

theorem total_cons (id : UInt32) (slot : Slot) (inv : List Slot) :
    total id (slot :: inv) = (if slot.1 = id then slot.2.toNat else 0) + total id inv :=
  Stock.total_cons id (slot.1, slot.2.toNat) (stock inv)

/-- The sum that is computed has wrapped around. -/
theorem toNat_amt (id : UInt32) (inv : List Slot) : (amt id inv).toNat = total id inv % 2 ^ 32 := by
  have hfold : ∀ acc : UInt32,
      (inv.foldl (fun amt slot => if slot.1 = id then amt + slot.2 else amt) acc).toNat =
        (acc.toNat + total id inv) % 2 ^ 32 := by
    induction inv with
    | nil =>
      intro acc
      exact (Nat.mod_eq_of_lt acc.toNat_lt).symm
    | cons slot inv ih =>
      intro acc
      rw [List.foldl_cons, ih, total_cons]
      split
      · rw [UInt32.toNat_add, Nat.mod_add_mod, Nat.add_assoc]
      · rw [Nat.zero_add]
  rw [amt, hfold, UInt32.toNat_zero, Nat.zero_add]

/-- Taking from a slot stops when it is empty or enough has been taken. -/
theorem takeUnits_spec (need : UInt32) (slot : Slot) (amt : UInt32) :
    let t := min (need.toNat - amt.toNat) slot.2.toNat
    ((takeUnits need slot amt).1.1, (takeUnits need slot amt).1.2.toNat) =
        Stock.drawn 0 t (slot.1, slot.2.toNat) ∧
      (takeUnits need slot amt).2.toNat = amt.toNat + t := by
  induction hn : slot.2.toNat generalizing slot amt with
  | zero =>
    have hnone : takeUnit need (slot, amt) = none := by
      rw [takeUnit, if_neg]
      intro h
      have hpos := UInt32.lt_iff_toNat_lt.mp h.1
      rw [hn] at hpos
      exact Nat.lt_irrefl 0 hpos
    rw [takeUnits, Loop.exec_of_none _ hnone, Nat.min_zero, hn]
    exact ⟨(Stock.drawn_zero _ _).symm, rfl⟩
  | succ n ih =>
    have hpos : 0 < slot.2 := UInt32.lt_iff_toNat_lt.mpr (by rw [hn]; exact Nat.succ_pos n)
    have hsub : (slot.2 - 1).toNat = n := by
      rw [UInt32.toNat_sub_of_le _ _ (UInt32.le_iff_toNat_le.mpr (by rw [hn]; exact Nat.succ_pos n)), hn]
      rfl
    by_cases hneed : amt < need
    · have hlt := UInt32.lt_iff_toNat_lt.mp hneed
      have hsome : takeUnit need (slot, amt) =
          some (if slot.2 - 1 = 0 then (0, 0) else (slot.1, slot.2 - 1), amt + 1) := by
        rw [takeUnit, if_pos ⟨hpos, hneed⟩]
      have hamt : (amt + 1).toNat = amt.toNat + 1 := by
        rw [UInt32.toNat_add, UInt32.toNat_one, Nat.mod_eq_of_lt]
        have := need.toNat_lt
        omega
      have hcount : (if slot.2 - 1 = 0 then ((0, 0) : Slot) else (slot.1, slot.2 - 1)).2.toNat = n := by
        split
        · next h => rw [← hsub, h]
        · exact hsub
      obtain ⟨hslot, htaken⟩ := ih _ (amt + 1) hcount
      rw [takeUnits, Loop.exec_of_some _ hsome, ← takeUnits]
      rw [hamt] at hslot htaken
      constructor
      · have hmin : min (need.toNat - amt.toNat) (n + 1) = min (need.toNat - (amt.toNat + 1)) n + 1 := by omega
        rw [hslot, hmin]
        by_cases hempty : slot.2 - 1 = 0
        · have hzero : n = 0 := by rw [← hsub, hempty, UInt32.toNat_zero]
          rw [if_pos hempty, hzero, Nat.min_zero, Stock.drawn_zero]
          rfl
        · rw [if_neg hempty, Stock.drawn_succ]
          apply Nat.pos_of_ne_zero
          intro hzero
          rw [hzero] at hsub
          exact hempty (UInt32.toNat_inj.mp hsub)
      · rw [htaken]
        omega
    · have hnone : takeUnit need (slot, amt) = none := by
        rw [takeUnit, if_neg (fun h => hneed h.2)]
      have hle : need.toNat ≤ amt.toNat := UInt32.le_iff_toNat_le.mp (UInt32.not_lt.mp hneed)
      rw [takeUnits, Loop.exec_of_none _ hnone, Nat.sub_eq_zero_of_le hle, Nat.zero_min, hn]
      exact ⟨(Stock.drawn_zero _ _).symm, rfl⟩

/-- An ingredient is taken from the first slots that have it. -/
theorem stock_takeIngredient (req : Slot) (amt : UInt32) (inv : List Slot) :
    stock (takeIngredient req amt inv) =
      Stock.take 0 (Pi.single req.1 (req.2.toNat - amt.toNat)) (stock inv) := by
  induction inv generalizing amt with
  | nil => rfl
  | cons slot inv ih =>
    rw [takeIngredient, stock_cons, Stock.take]
    simp only
    by_cases hid : slot.1 = req.1
    · obtain ⟨hslot, htaken⟩ := takeUnits_spec req.2 slot amt
      have hrest : stock (if req.2 ≤ (takeUnits req.2 slot amt).2 then inv
            else takeIngredient req (takeUnits req.2 slot amt).2 inv) =
          Stock.take 0 (Pi.single req.1 (req.2.toNat - (takeUnits req.2 slot amt).2.toNat)) (stock inv) := by
        split
        · next hle =>
          rw [Nat.sub_eq_zero_of_le (UInt32.le_iff_toNat_le.mp hle), Pi.single_zero, Stock.take_zero]
        · exact ih _
      have hleft : Function.update (Pi.single req.1 (req.2.toNat - amt.toNat) : UInt32 → ℕ) req.1
            (req.2.toNat - amt.toNat - slot.2.toNat) =
          Pi.single req.1 (req.2.toNat - (takeUnits req.2 slot amt).2.toNat) := by
        have hnum : req.2.toNat - amt.toNat - slot.2.toNat =
            req.2.toNat - (takeUnits req.2 slot amt).2.toNat := by
          rw [htaken]
          omega
        rw [hnum]
        exact Function.update_idem _ _ _
      rw [if_pos hid, stock_cons, hslot, hrest, hid, Pi.single_eq_same, hleft]
    · have hother : (Pi.single req.1 (req.2.toNat - amt.toNat) : UInt32 → ℕ) slot.1 = 0 := Pi.single_eq_of_ne hid _
      rw [if_neg hid, stock_cons, ih, hother, Nat.zero_min, Stock.drawn_zero, Nat.zero_sub, ← hother,
        Function.update_eq_self]

/-- How many of an item the recipe needs. -/
def needed (id : UInt32) : ℕ := total id recipe.ingredients

/-- **The ingredients** are taken from the first slots that have them, and nothing else is. -/
theorem stock_subtractIngredients (inv : List Slot) :
    stock (recipe.subtractIngredients inv) = Stock.take 0 recipe.needed (stock inv) := by
  have hfold : ∀ (reqs : List Slot) (inv : List Slot),
      stock (reqs.foldl (fun inv req => takeIngredient req 0 inv) inv) =
        Stock.take 0 (fun id => total id reqs) (stock inv) := by
    intro reqs
    induction reqs with
    | nil => exact fun inv => (Stock.take_zero 0 (stock inv)).symm
    | cons req reqs ih =>
      intro inv
      have hsum : (Pi.single req.1 (req.2.toNat - (0 : UInt32).toNat) : UInt32 → ℕ) + (fun id => total id reqs) =
          fun id => total id (req :: reqs) := by
        funext id
        rw [total_cons, Pi.add_apply, Pi.single_apply, UInt32.toNat_zero, Nat.sub_zero]
        simp only [eq_comm]
      rw [List.foldl_cons, ih, stock_takeIngredient, Stock.take_add, hsum]
  exact hfold recipe.ingredients inv

/-- Nothing is needed of an item that is no ingredient. -/
theorem total_eq_zero {reqs : List Slot} {id : UInt32} (hid : id ∉ reqs.map Prod.fst) : total id reqs = 0 := by
  induction reqs with
  | nil => rfl
  | cons req reqs ih =>
    rw [List.map_cons, List.mem_cons, not_or] at hid
    rw [total_cons, if_neg (Ne.symm hid.1), ih hid.2]

/-- Of an ingredient that is not listed twice, its own amount is needed. -/
theorem total_of_mem {reqs : List Slot} (hdistinct : (reqs.map Prod.fst).Nodup) {req : Slot} (hreq : req ∈ reqs) :
    total req.1 reqs = req.2.toNat := by
  induction reqs with
  | nil => cases hreq
  | cons req' reqs ih =>
    rw [List.map_cons, List.nodup_cons] at hdistinct
    rw [total_cons]
    rcases List.mem_cons.mp hreq with rfl | hreq
    · rw [if_pos rfl, total_eq_zero hdistinct.1, Nat.add_zero]
    · have hne : req'.1 ≠ req.1 := fun he => hdistinct.1 (he ▸ List.mem_map_of_mem hreq)
      rw [if_neg hne, Nat.zero_add, ih hdistinct.2 hreq]

/-- Some amount of every item covers what is needed when it covers the ingredients. -/
theorem needed_le_iff (hdistinct : (recipe.ingredients.map Prod.fst).Nodup) (f : UInt32 → ℕ) :
    (∀ id, recipe.needed id ≤ f id) ↔ ∀ req ∈ recipe.ingredients, req.2.toNat ≤ f req.1 := by
  constructor
  · intro h req hmem
    have hle := h req.1
    rw [needed, total_of_mem hdistinct hmem] at hle
    exact hle
  · intro h id
    by_cases hid : id ∈ recipe.ingredients.map Prod.fst
    · obtain ⟨req, hmem, rfl⟩ := List.mem_map.mp hid
      rw [needed, total_of_mem hdistinct hmem]
      exact h req hmem
    · rw [needed, total_eq_zero hid]
      exact Nat.zero_le _

/-- The slots have the ingredients, as far as the sums are computed. -/
theorem hasReqs_iff_forall (inv : List Slot) :
    recipe.hasReqs inv = true ↔ ∀ req ∈ recipe.ingredients, req.2.toNat ≤ total req.1 inv % 2 ^ 32 := by
  rw [hasReqs, List.all_eq_true]
  apply forall₂_congr
  intro req _
  rw [Bool.not_eq_true', decide_eq_false_iff_not, UInt32.not_lt, UInt32.le_iff_toNat_le, toNat_amt]

/-- The same, with distinct ingredients, said of all items. -/
theorem hasReqs_iff (hdistinct : (recipe.ingredients.map Prod.fst).Nodup) (inv : List Slot) :
    recipe.hasReqs inv = true ↔ ∀ id, recipe.needed id ≤ total id inv % 2 ^ 32 := by
  rw [hasReqs_iff_forall, needed_le_iff recipe hdistinct fun id => total id inv % 2 ^ 32]

/-! ### Putting the result in -/

/-- The result goes into this slot although its count overflows. -/
def Overflows (slot : UInt32 × ℕ) : Prop :=
  Stock.Takes 0 recipe.result.1 slot ∧ 2 ^ 32 ≤ slot.2 + recipe.result.2.toNat ∧
    (slot.2 + recipe.result.2.toNat) % 2 ^ 32 ≤ 999

instance (slot : UInt32 × ℕ) : Decidable (recipe.Overflows slot) := inferInstanceAs (Decidable (_ ∧ _ ∧ _))

/-- The slots before the first one whose count overflows. -/
def sound (slots : List (UInt32 × ℕ)) : List (UInt32 × ℕ) := slots.takeWhile fun slot => !decide (recipe.Overflows slot)

/-- The slots with the result put in, if a slot is found. -/
def placeResult (inv : List Slot) : Option (List Slot) := (recipe.resultslot inv).map fun slot => recipe.putResult slot inv

theorem sound_cons_of_overflows {slot : UInt32 × ℕ} (h : recipe.Overflows slot) (slots : List (UInt32 × ℕ)) :
    recipe.sound (slot :: slots) = [] := by
  rw [sound, List.takeWhile_cons, if_neg]
  simp only [h, decide_true, Bool.not_true, Bool.false_eq_true, not_false_eq_true]

theorem sound_cons {slot : UInt32 × ℕ} (h : ¬ recipe.Overflows slot) (slots : List (UInt32 × ℕ)) :
    recipe.sound (slot :: slots) = slot :: recipe.sound slots := by
  rw [sound, List.takeWhile_cons, if_pos]
  · rfl
  · simp only [h, decide_false, Bool.not_false]

/-- The first slot is taken if it is empty or holds the result, and the sum that is computed
is small enough; otherwise the search goes on. -/
theorem placeResult_cons (slot : Slot) (inv : List Slot) :
    recipe.placeResult (slot :: inv) =
      if (slot.1 = 0 ∨ slot.1 = recipe.result.1) ∧ slot.2 + recipe.result.2 ≤ 999
      then some ((recipe.result.1, slot.2 + recipe.result.2) :: inv)
      else (recipe.placeResult inv).map (slot :: ·) := by
  rw [placeResult, resultslot, List.findIdx?_cons]
  split
  · next h =>
    rw [if_pos (of_decide_eq_true h)]
    rfl
  · next h =>
    rw [if_neg (fun hh => h (decide_eq_true hh)), placeResult, resultslot, Option.map_map, Option.map_map]
    rfl

/-- The slot is found by the search: it has room, or its count overflows. -/
theorem found_iff (slot : Slot) :
    ((slot.1 = 0 ∨ slot.1 = recipe.result.1) ∧ slot.2 + recipe.result.2 ≤ 999) ↔
      Stock.Takes 0 recipe.result.1 (slot.1, slot.2.toNat) ∧ slot.2.toNat + recipe.result.2.toNat ≤ 999 ∨
        recipe.Overflows (slot.1, slot.2.toNat) := by
  have hsum : slot.2 + recipe.result.2 ≤ 999 ↔ (slot.2.toNat + recipe.result.2.toNat) % 2 ^ 32 ≤ 999 := by
    rw [UInt32.le_iff_toNat_le, UInt32.toNat_add]
    rfl
  rw [hsum, Overflows, ← and_or_left]
  apply and_congr Iff.rfl
  simp only
  omega

/-- A slot whose count overflows loses `2 ^ 32` of the result. -/
theorem total_of_overflows {slot : Slot} {inv : List Slot}
    (hclean : recipe.result.1 ≠ 0 → Stock.Clean 0 (stock (slot :: inv)))
    (hover : recipe.Overflows (slot.1, slot.2.toNat)) (id : UInt32) :
    total id ((recipe.result.1, slot.2 + recipe.result.2) :: inv) + (if recipe.result.1 = id then 2 ^ 32 else 0) =
      total id (slot :: inv) + if recipe.result.1 = id then recipe.result.2.toNat else 0 := by
  obtain ⟨htakes, hge, -⟩ := hover
  have hlt := slot.2.toNat_lt
  have hlt' := recipe.result.2.toNat_lt
  rw [total_cons, total_cons, UInt32.toNat_add]
  rcases htakes with h0 | hres
  · simp only at h0 hge
    by_cases hne : recipe.result.1 = 0
    · rw [h0, hne]
      split
      · omega
      · rfl
    · have hzero := hclean hne _ (List.mem_cons_self ..) h0
      simp only at hzero
      omega
  · simp only at hres hge
    rw [hres]
    split
    · omega
    · rfl

/-- **Where the result goes**: where a slot has room before any count overflows, into that
slot. Where none has, and a slot is found nevertheless, its count overflows. -/
theorem placeResult_spec (inv : List Slot) (hclean : recipe.result.1 ≠ 0 → Stock.Clean 0 (stock inv)) :
    match Stock.put 0 recipe.result.1 recipe.result.2.toNat 999 (recipe.sound (stock inv)) with
    | some slots => ∃ inv', recipe.placeResult inv = some inv' ∧ recipe.sound (stock inv') = slots ∧
        Stock.put 0 recipe.result.1 recipe.result.2.toNat 999 (stock inv) = some (stock inv')
    | none => ∀ inv', recipe.placeResult inv = some inv' →
        (recipe.result.1 ≠ 0 → Stock.Clean 0 (stock inv')) ∧ ∃ lost, 2 ^ 32 ≤ lost ∧
        ∀ id, total id inv' + (if recipe.result.1 = id then lost else 0) =
          total id inv + if recipe.result.1 = id then recipe.result.2.toNat else 0 := by
  induction inv with
  | nil =>
    intro inv' h
    cases h
  | cons slot inv ih =>
    have hrec := ih (fun hne s hs => hclean hne s (List.mem_cons_of_mem _ hs))
    rw [stock_cons, placeResult_cons]
    by_cases hover : recipe.Overflows (slot.1, slot.2.toNat)
    · rw [sound_cons_of_overflows recipe hover, if_pos ((found_iff recipe slot).mpr (Or.inr hover))]
      rintro inv' hinv'
      cases hinv'
      constructor
      · intro hne t ht he
        rcases List.mem_cons.mp ht with rfl | ht
        · exact absurd he hne
        · exact hclean hne t (List.mem_cons_of_mem _ ht) he
      · exact ⟨2 ^ 32, Nat.le_refl _, total_of_overflows recipe hclean hover⟩
    · rw [sound_cons recipe hover, Stock.put]
      by_cases hroom : Stock.Takes 0 recipe.result.1 (slot.1, slot.2.toNat) ∧ slot.2.toNat + recipe.result.2.toNat ≤ 999
      · have hsum : (slot.2 + recipe.result.2).toNat = slot.2.toNat + recipe.result.2.toNat := by
          rw [UInt32.toNat_add, Nat.mod_eq_of_lt]
          omega
        have hnew : ¬ recipe.Overflows (recipe.result.1, slot.2.toNat + recipe.result.2.toNat) := by
          rintro ⟨-, hge, -⟩
          simp only at hge
          omega
        rw [if_pos hroom, if_pos ((found_iff recipe slot).mpr (Or.inl hroom))]
        refine ⟨_, rfl, ?_, ?_⟩
        · rw [stock_cons, hsum, sound_cons recipe hnew]
        · rw [Stock.put, if_pos hroom, stock_cons, hsum]
      · have hfound := (not_congr (found_iff recipe slot)).mpr (not_or.mpr ⟨hroom, hover⟩)
        rw [if_neg hroom, if_neg hfound]
        cases hput : Stock.put 0 recipe.result.1 recipe.result.2.toNat 999 (recipe.sound (stock inv)) with
        | some slots =>
          rw [hput] at hrec
          obtain ⟨inv', hplace, hsound, hstock⟩ := hrec
          refine ⟨slot :: inv', by rw [hplace]; rfl, ?_, ?_⟩
          · rw [stock_cons, sound_cons recipe hover, hsound]
          · rw [Stock.put, if_neg hroom, hstock]
            rfl
        | none =>
          rw [hput] at hrec
          intro inv' hinv'
          obtain ⟨inv'', hplace, rfl⟩ := Option.map_eq_some_iff.mp hinv'
          obtain ⟨hclean', lost, hlost, htotal⟩ := hrec inv'' hplace
          constructor
          · intro hne t ht he
            rcases List.mem_cons.mp ht with rfl | ht
            · exact hclean hne _ (List.mem_cons_self ..) he
            · exact hclean' hne t ht he
          · refine ⟨lost, hlost, fun id => ?_⟩
            have hid := htotal id
            rw [total_cons, total_cons]
            omega

/-! ### When there is room for all results -/

/-- So many results have room, before any count overflows, in the slots that hold the result or
are empty after the ingredients for them have been taken. -/
def RoomFor (inv : List Slot) (j : ℕ) : Prop :=
  Stock.Fits 0 recipe.result.1 recipe.result.2.toNat 999
    (Stock.take 0 (fun id => j * recipe.needed id) (recipe.sound (stock inv))) j

instance (inv : List Slot) (j : ℕ) : Decidable (recipe.RoomFor inv j) := Stock.decidableFits ..

/-- The results of every number of crafts that the ingredients allow have room. -/
def HasRoom (inv : List Slot) : Prop :=
  ∀ j, (∀ id, j * recipe.needed id ≤ total id inv % 2 ^ 32) → recipe.RoomFor inv j

/-- After some crafts, each of which finds a slot with room, the ingredients are missing. -/
inductive RunsOut : List Slot → Prop
  /-- The ingredients are missing. -/
  | lacks {inv : List Slot} : recipe.hasReqs inv = false → RunsOut inv
  /-- There is a slot with room before any count overflows, and the result goes there. -/
  | craft {inv inv' : List Slot} : recipe.hasReqs inv = true →
      (Stock.put 0 recipe.result.1 recipe.result.2.toNat 999
        (recipe.sound (stock (recipe.subtractIngredients inv)))).isSome →
      recipe.placeResult (recipe.subtractIngredients inv) = some inv' → RunsOut inv' → RunsOut inv

/-- Slots with no item are empty, unless the result is no item. -/
def Clean (inv : List Slot) : Prop := recipe.result.1 ≠ 0 → Stock.Clean 0 (stock inv)

theorem Clean.subtractIngredients {recipe : Recipe} {inv : List Slot} (h : recipe.Clean inv) :
    recipe.Clean (recipe.subtractIngredients inv) := by
  intro hne
  rw [stock_subtractIngredients]
  exact (h hne).take 0 recipe.needed

theorem total_subtractIngredients (id : UInt32) (inv : List Slot) :
    total id (recipe.subtractIngredients inv) = total id inv - recipe.needed id := by
  rw [total, stock_subtractIngredients, Stock.total_take, total]

/-- A result that finds a slot with room is added to the totals. -/
theorem place_of_room {inv : List Slot} (hclean : recipe.Clean inv)
    (hroom : (Stock.put 0 recipe.result.1 recipe.result.2.toNat 999 (recipe.sound (stock inv))).isSome) :
    ∃ inv', recipe.placeResult inv = some inv' ∧ recipe.Clean inv' ∧
      Stock.put 0 recipe.result.1 recipe.result.2.toNat 999 (recipe.sound (stock inv)) =
        some (recipe.sound (stock inv')) ∧
      ∀ id, total id inv' = total id inv + if recipe.result.1 = id then recipe.result.2.toNat else 0 := by
  obtain ⟨slots, hslots⟩ := Option.isSome_iff_exists.mp hroom
  have hspec := placeResult_spec recipe inv hclean
  rw [hslots] at hspec
  obtain ⟨inv', hplace, hsound, hput⟩ := hspec
  refine ⟨inv', hplace, ?_, ?_, ?_⟩
  · intro hne
    exact (hclean hne).put hne hput
  · rw [hsound, hslots]
  · exact Stock.total_put hclean hput

/-- Slots from which nothing is taken overflow as before. -/
theorem sound_take {f : UInt32 → ℕ} (hzero : f 0 = 0) (hresult : f recipe.result.1 = 0) (slots : List (UInt32 × ℕ)) :
    recipe.sound (Stock.take 0 f slots) = Stock.take 0 f (recipe.sound slots) := by
  induction slots generalizing f with
  | nil => rfl
  | cons slot slots ih =>
    have hzero' : (Function.update f slot.1 (f slot.1 - slot.2)) 0 = 0 := by
      rw [Function.update_apply]
      split
      · next h => rw [← h, hzero, Nat.zero_sub]
      · exact hzero
    have hresult' : (Function.update f slot.1 (f slot.1 - slot.2)) recipe.result.1 = 0 := by
      rw [Function.update_apply]
      split
      · next h => rw [← h, hresult, Nat.zero_sub]
      · exact hresult
    have hsame : recipe.Overflows (Stock.drawn 0 (min (f slot.1) slot.2) slot) ↔ recipe.Overflows slot := by
      by_cases hf : f slot.1 = 0
      · rw [hf, Nat.zero_min, Stock.drawn_zero]
      · have hnot : ¬ Stock.Takes 0 recipe.result.1 slot := by
          rintro (h | h)
          · exact hf (h ▸ hzero)
          · exact hf (h ▸ hresult)
        have hright : ¬ recipe.Overflows slot := fun h => hnot h.1
        simp only [hright, iff_false]
        rintro ⟨htakes, hge, -⟩
        rcases Stock.drawn_fst 0 (min (f slot.1) slot.2) slot with h | h
        · rw [Stock.Takes, h] at htakes
          exact hnot htakes
        · rw [h] at hge
          have hlt := recipe.result.2.toNat_lt
          simp only at hge
          omega
    rw [Stock.take]
    by_cases hover : recipe.Overflows slot
    · rw [sound_cons_of_overflows recipe (hsame.mpr hover), sound_cons_of_overflows recipe hover, Stock.take]
    · rw [sound_cons recipe (fun h => hover (hsame.mp h)), sound_cons recipe hover, ih hzero' hresult', Stock.take]

/-- Nothing needs the item of empty slots, where the ingredients are there. -/
theorem needed_zero {inv : List Slot} (hclean : recipe.Clean inv) (hresult : recipe.needed recipe.result.1 = 0)
    (hreqs : ∀ id, recipe.needed id ≤ total id inv % 2 ^ 32) : recipe.needed 0 = 0 := by
  by_cases hne : recipe.result.1 = 0
  · rw [← hne, hresult]
  · have htotal : ∀ {slots : List (UInt32 × ℕ)}, Stock.Clean 0 slots → Stock.total 0 slots = 0 := by
      intro slots
      induction slots with
      | nil => exact fun _ => rfl
      | cons slot slots ih =>
        intro hslots
        rw [Stock.total_cons, ih (fun s hs => hslots s (List.mem_cons_of_mem _ hs))]
        split
        · next h => rw [hslots slot (List.mem_cons_self ..) h]
        · rfl
    have hle := hreqs 0
    rw [total, htotal (hclean hne)] at hle
    exact Nat.le_zero.mp hle

/-- **One craft**: there is room for the results of all crafts exactly when there is room for
this one, and for the others afterwards. -/
theorem hasRoom_step {inv : List Slot} (hclean : recipe.Clean inv) (hresult : recipe.needed recipe.result.1 = 0)
    (hreqs : ∀ id, recipe.needed id ≤ total id inv % 2 ^ 32) :
    recipe.HasRoom inv ↔
      (Stock.put 0 recipe.result.1 recipe.result.2.toNat 999
        (recipe.sound (stock (recipe.subtractIngredients inv)))).isSome ∧
      ∀ inv', recipe.placeResult (recipe.subtractIngredients inv) = some inv' → recipe.HasRoom inv' := by
  have hzero := needed_zero recipe hclean hresult hreqs
  have hsound : recipe.sound (stock (recipe.subtractIngredients inv)) =
      Stock.take 0 recipe.needed (recipe.sound (stock inv)) := by
    rw [stock_subtractIngredients, sound_take recipe hzero hresult]
  have htake : ∀ j, Stock.take 0 (fun id => (j + 1) * recipe.needed id) (recipe.sound (stock inv)) =
      Stock.take 0 (fun id => j * recipe.needed id) (recipe.sound (stock (recipe.subtractIngredients inv))) := by
    intro j
    rw [hsound, Stock.take_add]
    apply congrArg (fun f => Stock.take 0 f (recipe.sound (stock inv)))
    funext id
    rw [Pi.add_apply, Nat.succ_mul, Nat.add_comm]
  have hfirst : recipe.HasRoom inv → (Stock.put 0 recipe.result.1 recipe.result.2.toNat 999
      (recipe.sound (stock (recipe.subtractIngredients inv)))).isSome := by
    intro h
    have hone := h 1 (fun id => by rw [Nat.one_mul]; exact hreqs id)
    rw [RoomFor, htake 0] at hone
    simp only [Nat.zero_mul] at hone
    exact (Stock.put_isSome_iff _).mpr ((Stock.take_zero 0 (recipe.sound _)) ▸ hone)
  rw [← and_iff_right_iff_imp] at hfirst
  rw [← hfirst]
  apply and_congr_right
  intro hroom
  obtain ⟨inv', hplace, -, hput, htotal⟩ := place_of_room recipe hclean.subtractIngredients hroom
  have hnext : ∀ j, recipe.RoomFor inv (j + 1) ↔ recipe.RoomFor inv' j := by
    intro j
    rw [RoomFor, RoomFor, htake]
    exact (Stock.fits_take_put (by rw [hzero, Nat.mul_zero]) (by rw [hresult, Nat.mul_zero]) hput j).symm
  have hallow : ∀ j, (∀ id, (j + 1) * recipe.needed id ≤ total id inv % 2 ^ 32) ↔
      ∀ id, j * recipe.needed id ≤ total id inv' % 2 ^ 32 := by
    intro j
    apply forall_congr'
    intro id
    by_cases hid : recipe.needed id = 0
    · rw [hid, Nat.mul_zero, Nat.mul_zero]
      exact iff_of_true (Nat.zero_le _) (Nat.zero_le _)
    · have hne : recipe.result.1 ≠ id := by
        rintro rfl
        exact hid hresult
      have hle := hreqs id
      rw [htotal, if_neg hne, Nat.add_zero, total_subtractIngredients, Nat.succ_mul]
      omega
  constructor
  · intro h inv'' hplace''
    rw [hplace, Option.some.injEq] at hplace''
    subst hplace''
    intro j hj
    exact (hnext j).mp (h (j + 1) ((hallow j).mpr hj))
  · intro h j hj
    cases j with
    | zero => exact Stock.fits_zero _
    | succ j => exact (hnext j).mpr (h inv' hplace j ((hallow j).mp hj))

/-- Where the result is no ingredient, the crafts run out of ingredients exactly when there is
room for all results. -/
theorem runsOut_iff_hasRoom (hdistinct : (recipe.ingredients.map Prod.fst).Nodup)
    (hpos : ∃ id, 0 < recipe.needed id) (hresult : recipe.needed recipe.result.1 = 0) {inv : List Slot}
    (hclean : recipe.Clean inv) : recipe.RunsOut inv ↔ recipe.HasRoom inv := by
  obtain ⟨x, hx⟩ := hpos
  have hlacks : ∀ {inv}, recipe.hasReqs inv = false → recipe.HasRoom inv := by
    intro inv hlacks j hj
    cases j with
    | zero => exact Stock.fits_zero _
    | succ j =>
      have hreqs : recipe.hasReqs inv = true := by
        rw [hasReqs_iff recipe hdistinct]
        intro id
        exact Nat.le_trans (Nat.le_mul_of_pos_left _ (Nat.succ_pos j)) (hj id)
      rw [hlacks] at hreqs
      cases hreqs
  constructor
  · intro h
    induction h with
    | lacks hlacks' => exact hlacks hlacks'
    | craft hreqs hroom hplace _ ih =>
      obtain ⟨inv'', hplace'', hclean'', -, -⟩ := place_of_room recipe hclean.subtractIngredients hroom
      rw [hplace, Option.some.injEq] at hplace''
      subst hplace''
      apply (hasRoom_step recipe hclean hresult ((hasReqs_iff recipe hdistinct _).mp hreqs)).mpr
      refine ⟨hroom, fun inv'' hplace'' => ?_⟩
      rw [hplace, Option.some.injEq] at hplace''
      subst hplace''
      exact ih hclean''
  · intro h
    induction hn : total x inv % 2 ^ 32 using Nat.strongRecOn generalizing inv with
    | _ n ih =>
      subst hn
      cases hreqs : recipe.hasReqs inv with
      | false => exact .lacks hreqs
      | true =>
        have hreqs' := (hasReqs_iff recipe hdistinct inv).mp hreqs
        obtain ⟨hroom, hrest⟩ := (hasRoom_step recipe hclean hresult hreqs').mp h
        obtain ⟨inv', hplace, hclean', -, htotal⟩ := place_of_room recipe hclean.subtractIngredients hroom
        apply RunsOut.craft hreqs hroom hplace
        apply ih _ _ hclean' (hrest inv' hplace) rfl
        have hne : recipe.result.1 ≠ x := by
          rintro rfl
          omega
        have hle := hreqs' x
        rw [htotal, if_neg hne, Nat.add_zero, total_subtractIngredients]
        omega

/-! ### Crafting all, and crafting again and again -/

/-- Setting the slots that differ makes the slots the new ones. -/
theorem setDiffering_spec (new : List Slot) (inv : Inventory) (hlength : new.length = inv.inv.length) :
    (setDiffering new inv).inv = new ∧
      (setDiffering new inv).dirty = (inv.dirty || !decide (new = inv.inv)) := by
  have hfold : ∀ (rest done old : List Slot) (acc : Inventory), rest.length = old.length →
      (∀ i, inv.inv[done.length + i]? = old[i]?) → acc.inv = done ++ old →
      ((rest.zipIdx done.length).foldl (fun acc s => if inv.inv[s.2]? ≠ some s.1
        then acc.setInInventory s.2 s.1.1 s.1.2 else acc) acc).inv = done ++ rest ∧
      ((rest.zipIdx done.length).foldl (fun acc s => if inv.inv[s.2]? ≠ some s.1
        then acc.setInInventory s.2 s.1.1 s.1.2 else acc) acc).dirty = (acc.dirty || !decide (rest = old)) := by
    intro rest
    induction rest with
    | nil =>
      intro done old acc hlen _ hacc
      have hold : old = [] := List.length_eq_zero_iff.mp hlen.symm
      subst hold
      exact ⟨hacc, by simp⟩
    | cons s rest ih =>
      intro done old acc hlen hget hacc
      obtain ⟨o, old, rfl⟩ : ∃ o old', old = o :: old' := by
        cases old with
        | nil => cases hlen
        | cons o old => exact ⟨o, old, rfl⟩
      have hhead : inv.inv[done.length]? = some o := hget 0
      have hlen' : rest.length = old.length := Nat.succ.inj hlen
      have hget' : ∀ i, inv.inv[(done ++ [s]).length + i]? = old[i]? := by
        intro i
        have := hget (i + 1)
        rw [List.length_append, List.length_singleton, Nat.add_assoc, Nat.add_comm 1 i]
        exact this
      rw [List.zipIdx_cons, List.foldl_cons]
      simp only [hhead]
      by_cases hs : o = s
      · subst hs
        rw [if_neg (not_not_intro rfl)]
        obtain ⟨hinv, hdirty⟩ := ih (done ++ [o]) old acc hlen' hget' (by rw [hacc, List.append_assoc]; rfl)
        rw [List.length_append, List.length_singleton] at hinv hdirty
        rw [hinv, hdirty, List.append_assoc]
        refine ⟨rfl, ?_⟩
        simp only [List.cons.injEq, true_and]
      · rw [if_pos (fun h => hs (Option.some.inj h))]
        have hset : (acc.setInInventory done.length s.1 s.2).inv = (done ++ [s]) ++ old := by
          rw [Inventory.inv_setInInventory, hacc, List.set_append_right _ _ (Nat.le_refl _), Nat.sub_self, List.append_assoc]
          rfl
        obtain ⟨hinv, hdirty⟩ := ih (done ++ [s]) old (acc.setInInventory done.length s.1 s.2) hlen' hget' hset
        rw [List.length_append, List.length_singleton] at hinv hdirty
        rw [hinv, hdirty, List.append_assoc]
        refine ⟨rfl, ?_⟩
        have hne : ¬ (s :: rest = o :: old) := fun h => hs (List.cons.inj h).1.symm
        simp only [hne, decide_false, Bool.not_false, Bool.or_true, Inventory.dirty_setInInventory, Bool.true_or]
  exact hfold new [] inv.inv inv hlength (fun i => by rw [List.length_nil, Nat.zero_add]) rfl

theorem length_stock (inv : List Slot) : (stock inv).length = inv.length := List.length_map _

/-- Taking the ingredients out leaves the number of slots. -/
theorem length_subtractIngredients (inv : List Slot) : (recipe.subtractIngredients inv).length = inv.length := by
  rw [← length_stock, stock_subtractIngredients, Stock.length_take, length_stock]

/-- Crafting once: the inventory is what a craft on a copy makes of it, if that finds a slot. -/
theorem craftOne_eq (inv : Inventory) :
    (recipe.hasReqs inv.inv = false → recipe.craftOne inv = inv) ∧
      (recipe.hasReqs inv.inv = true →
        (recipe.placeResult (recipe.subtractIngredients inv.inv) = none → recipe.craftOne inv = inv) ∧
        ∀ inv', recipe.placeResult (recipe.subtractIngredients inv.inv) = some inv' →
          (recipe.craftOne inv).inv = inv' ∧ (recipe.craftOne inv).dirty = true) := by
  refine ⟨?_, ?_⟩
  · intro hreqs
    rw [craftOne, hreqs]
    rfl
  · intro hreqs
    constructor
    · intro hnone
      have hslot : recipe.resultslot (recipe.subtractIngredients inv.inv) = none := Option.map_eq_none_iff.mp hnone
      rw [craftOne, if_pos hreqs]
      simp only [hslot]
    · intro inv' hsome
      obtain ⟨slot, hslot, rfl⟩ := Option.map_eq_some_iff.mp hsome
      have hset := (setDiffering_spec (recipe.subtractIngredients inv.inv) inv (length_subtractIngredients recipe _)).1
      rw [craftOne, if_pos hreqs]
      simp only [hslot, Inventory.inv_setInInventory, Inventory.dirty_setInInventory, hset, and_true]
      rfl

/-- One round of crafting all, while more may be possible. -/
theorem craftRound_eq (inv : List Slot) :
    (recipe.hasReqs inv = false → recipe.craftRound (inv, true) = some (inv, false)) ∧
      (recipe.hasReqs inv = true →
        (recipe.placeResult (recipe.subtractIngredients inv) = none →
          recipe.craftRound (inv, true) = some (recipe.subtractIngredients inv, false)) ∧
        ∀ inv', recipe.placeResult (recipe.subtractIngredients inv) = some inv' →
          recipe.craftRound (inv, true) = some (inv', true)) := by
  refine ⟨?_, ?_⟩
  · intro hreqs
    rw [craftRound, if_pos rfl, craftInLocalInv, hreqs]
    rfl
  · intro hreqs
    constructor
    · intro hnone
      have hslot : recipe.resultslot (recipe.subtractIngredients inv) = none := Option.map_eq_none_iff.mp hnone
      rw [craftRound, if_pos rfl, craftInLocalInv, if_pos hreqs]
      simp only [hslot]
    · intro inv' hsome
      obtain ⟨slot, hslot, rfl⟩ := Option.map_eq_some_iff.mp hsome
      rw [craftRound, if_pos rfl, craftInLocalInv, if_pos hreqs]
      simp only [hslot]

theorem ends_of_false (inv : List Slot) : Loop.Ends recipe.craftRound 0 (inv, false) (inv, false) := .stop rfl

/-- Crafting all leaves the number of slots. -/
theorem length_of_ends {n : ℕ} {s t : List Slot × Bool} (h : Loop.Ends recipe.craftRound n s t) :
    t.1.length = s.1.length := by
  induction h with
  | stop _ => rfl
  | @round s s' t n hround _ ih =>
    rw [ih]
    rw [craftRound] at hround
    split at hround
    · cases hround
      rw [craftInLocalInv]
      split
      · dsimp only
        split
        · rw [putResult, List.length_set, length_subtractIngredients]
        · exact length_subtractIngredients recipe s.1
      · rfl
    · cases hround

/-- Crafting all does what crafting again and again does, which comes to an end after `k`
crafts that change the inventory, and the totals are those of `k` crafts. A craft that leaves the
inventory as it is does not count. -/
def Refines (inv : Inventory) : Prop :=
  ∃ k inv', recipe.CraftsAll inv inv' ∧ Loop.Ends recipe.craftAgain k inv inv' ∧
    ∀ id, total id inv'.inv + k * recipe.needed id =
      total id inv.inv + k * if recipe.result.1 = id then recipe.result.2.toNat else 0

/-- The totals after crafts that run out, and what the two loops do. -/
theorem RunsOut.ends {recipe : Recipe} {slots : List Slot} (h : recipe.RunsOut slots)
    (hdistinct : (recipe.ingredients.map Prod.fst).Nodup) (hclean : recipe.Clean slots) :
    ∃ n k slots', Loop.Ends recipe.craftRound n (slots, true) (slots', false) ∧ (k = 0 → slots' = slots) ∧
      (k ≠ 0 → slots' ≠ slots) ∧ recipe.hasReqs slots' = false ∧
      (∀ id, total id slots' + k * recipe.needed id =
        total id slots + k * if recipe.result.1 = id then recipe.result.2.toNat else 0) ∧
      ∀ inv : Inventory, inv.inv = slots →
        ∃ inv', inv'.inv = slots' ∧ inv'.dirty = (inv.dirty || !decide (slots' = slots)) ∧
          Loop.Ends recipe.craftAgain k inv inv' := by
  induction h with
  | @lacks slots hreqs =>
    refine ⟨1, 0, slots, .round ((craftRound_eq recipe slots).1 hreqs) (ends_of_false recipe slots), fun _ => rfl,
      fun h => absurd rfl h, hreqs, fun id => by rw [Nat.zero_mul, Nat.zero_mul], ?_⟩
    rintro inv rfl
    have hone : recipe.craftOne inv = inv := (craftOne_eq recipe inv).1 hreqs
    refine ⟨inv, rfl, by simp, .stop ?_⟩
    rw [craftAgain, if_pos hone]
  | @craft slots slots₁ hreqs hroom hplace hrest ih =>
    obtain ⟨slots₁', hplace', hclean', -, htotal₁⟩ := place_of_room recipe hclean.subtractIngredients hroom
    rw [hplace, Option.some.injEq] at hplace'
    subst hplace'
    obtain ⟨n, k, slots', hends, hk0, hk, hlacks, htotal, hagain⟩ := ih hclean'
    have hround := ((craftRound_eq recipe slots).2 hreqs).2 slots₁ hplace
    have hends' : Loop.Ends recipe.craftRound (n + 1) (slots, true) (slots', false) := .round hround hends
    have hne : slots₁ ≠ slots := fun he => hends'.ne_of_step hround (by rw [he])
    have hne' : slots' ≠ slots := by
      rintro rfl
      rw [hlacks] at hreqs
      cases hreqs
    refine ⟨n + 1, k + 1, slots', hends', fun h => absurd h (Nat.succ_ne_zero k), fun _ => hne', hlacks, ?_, ?_⟩
    · intro id
      have hreqs' := (hasReqs_iff recipe hdistinct slots).mp hreqs id
      have hle : recipe.needed id ≤ total id slots := Nat.le_trans hreqs' (Nat.mod_le _ _)
      have hid := htotal id
      rw [htotal₁, total_subtractIngredients] at hid
      rw [Nat.succ_mul, Nat.succ_mul]
      omega
    · rintro inv rfl
      obtain ⟨hinv₁, hdirty₁⟩ := ((craftOne_eq recipe inv).2 hreqs).2 slots₁ hplace
      obtain ⟨inv', hinv', hdirty', hends''⟩ := hagain (recipe.craftOne inv) hinv₁
      have hchanged : recipe.craftOne inv ≠ inv := by
        intro he
        rw [he] at hinv₁
        exact hne hinv₁.symm
      refine ⟨inv', hinv', ?_, .round ?_ hends''⟩
      · rw [hdirty', hdirty₁]
        simp [hne']
      · rw [craftAgain, if_neg hchanged]

/-- Crafts that run out: crafting all does what crafting again and again does. -/
theorem RunsOut.refines {recipe : Recipe} {inv : Inventory} (h : recipe.RunsOut inv.inv)
    (hdistinct : (recipe.ingredients.map Prod.fst).Nodup) (hclean : recipe.Clean inv.inv) : recipe.Refines inv := by
  obtain ⟨n, k, slots', hends, -, -, -, htotal, hagain⟩ := h.ends hdistinct hclean
  obtain ⟨inv', hinv', hdirty', hends'⟩ := hagain inv rfl
  refine ⟨k, inv', ⟨n, slots', hends, ?_⟩, hends', ?_⟩
  · by_cases hsame : slots' = inv.inv
    · rw [if_neg (not_not_intro hsame)]
      apply Inventory.ext
      · simp [hdirty', hsame]
      · rw [hinv', hsame]
    · have hlength : slots'.length = inv.inv.length := by rw [← hinv', inv'.length_inv, inv.length_inv]
      obtain ⟨hset, hdirty⟩ := setDiffering_spec slots' inv hlength
      rw [if_pos hsame]
      apply Inventory.ext
      · rw [hdirty', hdirty]
      · rw [hinv', hset]
  · intro id
    rw [hinv']
    exact htotal id

/-- The totals after one more craft, which may lose some of its result, are those of the crafts that
are left. -/
theorem total_of_craft {recipe : Recipe} {slots slots₁ slots' : List Slot} {k lost lost₁ : ℕ} {id : UInt32}
    (hreqs : recipe.needed id ≤ total id slots)
    (htotal : total id slots' + (k + 1) * recipe.needed id =
      total id slots + (k + 1) * (if recipe.result.1 = id then recipe.result.2.toNat else 0) +
        if recipe.result.1 = id then lost else 0)
    (htotal₁ : total id slots₁ + (if recipe.result.1 = id then lost₁ else 0) =
      total id (recipe.subtractIngredients slots) + if recipe.result.1 = id then recipe.result.2.toNat else 0) :
    total id slots' + k * recipe.needed id =
      total id slots₁ + k * (if recipe.result.1 = id then recipe.result.2.toNat else 0) +
        if recipe.result.1 = id then lost + lost₁ else 0 := by
  rw [total_subtractIngredients] at htotal₁
  rw [Nat.succ_mul, Nat.succ_mul] at htotal
  split at htotal
  · next he =>
    rw [if_pos he] at htotal₁ htotal₁ ⊢
    rw [if_pos he]
    omega
  · next he =>
    rw [if_neg he] at htotal₁ htotal₁ ⊢
    rw [if_neg he]
    omega

/-- Where crafting all and crafting again and again end alike, and the totals are those of the
crafts up to some `lost` results, nothing is lost and the crafts run out. -/
theorem RunsOut.of_ends {recipe : Recipe} (hdistinct : (recipe.ingredients.map Prod.fst).Nodup)
    (hpos : ∃ id, 0 < recipe.needed id) {n : ℕ} {slots slots' : List Slot}
    (h : Loop.Ends recipe.craftRound n (slots, true) (slots', false)) (hclean : recipe.Clean slots)
    {inv inv' : Inventory} {k lost : ℕ} (hinv : inv.inv = slots) (hinv' : inv'.inv = slots')
    (hagain : Loop.Ends recipe.craftAgain k inv inv')
    (htotal : ∀ id, total id slots' + k * recipe.needed id =
      total id slots + k * (if recipe.result.1 = id then recipe.result.2.toNat else 0) +
        if recipe.result.1 = id then lost else 0) : lost = 0 ∧ recipe.RunsOut slots := by
  induction n generalizing slots inv k lost with
  | zero =>
    cases h
  | succ n ih =>
    subst hinv
    have hstays : recipe.craftOne inv = inv → k = 0 ∧ inv' = inv := by
      intro hone
      have hstop : recipe.craftAgain inv = none := if_pos hone
      exact hagain.unique (.stop hstop)
    have hloop := h
    cases h with
    | round hround hrest =>
    cases hreqs : recipe.hasReqs inv.inv with
    | false =>
      obtain ⟨rfl, rfl⟩ := hstays ((craftOne_eq recipe inv).1 hreqs)
      have hresult := htotal recipe.result.1
      rw [hinv', Nat.zero_mul, Nat.zero_mul, if_pos rfl] at hresult
      exact ⟨by omega, .lacks hreqs⟩
    | true =>
      have hreqs' := (hasReqs_iff recipe hdistinct _).mp hreqs
      cases hplace : recipe.placeResult (recipe.subtractIngredients inv.inv) with
      | none =>
        -- the ingredients of the last round are gone, though crafting once leaves the inventory
        obtain ⟨rfl, rfl⟩ := hstays (((craftOne_eq recipe inv).2 hreqs).1 hplace)
        rw [((craftRound_eq recipe inv'.inv).2 hreqs).1 hplace, Option.some.injEq] at hround
        subst hround
        have hlost : recipe.subtractIngredients inv'.inv = slots' :=
          (Prod.mk.inj (hrest.unique (ends_of_false recipe _)).2).1.symm
        obtain ⟨x, hx⟩ := hpos
        have hle := Nat.le_trans (hreqs' x) (Nat.mod_le _ _)
        have hx' := total_subtractIngredients recipe x inv'.inv
        rw [hlost, ← hinv'] at hx'
        omega
      | some slots₁ =>
        have hround' := ((craftRound_eq recipe inv.inv).2 hreqs).2 slots₁ hplace
        have hne : slots₁ ≠ inv.inv := fun he => hloop.ne_of_step hround' (by rw [he])
        obtain ⟨hinv₁, -⟩ := ((craftOne_eq recipe inv).2 hreqs).2 slots₁ hplace
        rw [hround', Option.some.injEq] at hround
        subst hround
        have hsome : recipe.craftAgain inv = some (recipe.craftOne inv) := by
          apply if_neg
          intro he
          rw [he] at hinv₁
          exact hne hinv₁.symm
        -- the totals after this craft, up to what its result loses
        have hcraft : ∀ lost₁ : ℕ, recipe.Clean slots₁ → (∀ id, total id slots₁ +
              (if recipe.result.1 = id then lost₁ else 0) = total id (recipe.subtractIngredients inv.inv) +
                if recipe.result.1 = id then recipe.result.2.toNat else 0) →
            lost + lost₁ = 0 ∧ recipe.RunsOut slots₁ := by
          intro lost₁ hclean₁ htotal₁
          cases hagain with
          | stop hnone =>
            rw [hsome] at hnone
            cases hnone
          | @round _ _ _ k hstep hrest' =>
            rw [hsome, Option.some.injEq] at hstep
            subst hstep
            apply ih hrest hclean₁ hinv₁ hrest'
            exact fun id => total_of_craft (Nat.le_trans (hreqs' id) (Nat.mod_le _ _)) (htotal id) (htotal₁ id)
        cases hroom : Stock.put 0 recipe.result.1 recipe.result.2.toNat 999
            (recipe.sound (stock (recipe.subtractIngredients inv.inv))) with
        | some slots =>
          have hroom' := Option.isSome_of_eq_some hroom
          obtain ⟨slots₁', hplace', hclean₁, -, htotal₁⟩ := place_of_room recipe hclean.subtractIngredients hroom'
          rw [hplace, Option.some.injEq] at hplace'
          subst hplace'
          obtain ⟨hlost, hruns⟩ := hcraft 0 hclean₁ (fun id => by rw [ite_self, Nat.add_zero, htotal₁])
          exact ⟨hlost, .craft hreqs hroom' hplace hruns⟩
        | none =>
          have hspec := placeResult_spec recipe (recipe.subtractIngredients inv.inv) hclean.subtractIngredients
          rw [hroom] at hspec
          obtain ⟨hclean₁, lost₁, hlost₁, htotal₁⟩ := hspec slots₁ hplace
          have hzero := (hcraft lost₁ hclean₁ htotal₁).1
          omega

/-- Crafting all does what crafting again and again does exactly when the crafts run out. -/
theorem refines_iff_runsOut (hdistinct : (recipe.ingredients.map Prod.fst).Nodup) (hpos : ∃ id, 0 < recipe.needed id)
    {inv : Inventory} (hclean : recipe.Clean inv.inv) : recipe.Refines inv ↔ recipe.RunsOut inv.inv := by
  constructor
  · rintro ⟨k, inv', ⟨n, slots', hends, hinv'⟩, hagain, htotal⟩
    have hslots : inv'.inv = slots' := by
      rw [hinv']
      split
      · exact (setDiffering_spec slots' inv (length_of_ends recipe hends)).1
      · next hsame => exact (not_not.mp hsame).symm
    have hruns : 0 = 0 ∧ recipe.RunsOut inv.inv := by
      apply RunsOut.of_ends hdistinct hpos hends hclean rfl hslots hagain
      intro id
      rw [← hslots, htotal, ite_self, Nat.add_zero]
    exact hruns.2
  · exact fun h => h.refines hdistinct hclean

/-- **Crafting all refines crafting once**: from an inventory whose slots hold an item exactly
when they hold some of it, with distinct ingredients of which some is needed, crafting all
does what repeated crafting does exactly when the results of every number of crafts that the
ingredients allow have room; where the result is an ingredient itself, exactly when the crafts
run out of ingredients one by one. -/
theorem craftAll_refines_iff (inv : Inventory) (hslots : ∀ slot ∈ inv.inv, slot.1 = 0 ↔ slot.2 = 0)
    (hdistinct : (recipe.ingredients.map Prod.fst).Nodup) (hpos : ∃ req ∈ recipe.ingredients, 0 < req.2) :
    recipe.Refines inv ↔
      if recipe.needed recipe.result.1 = 0 then recipe.HasRoom inv.inv else recipe.RunsOut inv.inv := by
  have hclean : recipe.Clean inv.inv := by
    intro _ slot hslot h0
    obtain ⟨slot, hmem, rfl⟩ := List.mem_map.mp hslot
    simp only at h0 ⊢
    rw [(hslots slot hmem).mp h0, UInt32.toNat_zero]
  have hpos' : ∃ id, 0 < recipe.needed id := by
    obtain ⟨req, hmem, hreq⟩ := hpos
    have hstock : (req.1, req.2.toNat) ∈ stock recipe.ingredients := List.mem_map.mpr ⟨req, hmem, rfl⟩
    exact ⟨req.1, Nat.lt_of_lt_of_le (UInt32.lt_iff_toNat_lt.mp hreq) (Stock.le_total hstock)⟩
  rw [refines_iff_runsOut recipe hdistinct hpos' hclean]
  split
  · next hresult => exact runsOut_iff_hasRoom recipe hdistinct hpos' hresult hclean
  · exact Iff.rfl

/-- Four planks from a log. -/
def planks : Recipe := ⟨[(6, 1)], (10, 4)⟩

/-- Two logs, and seven empty slots. -/
def twoLogs : Inventory := ⟨false, [(6, 2), (0, 0), (0, 0), (0, 0), (0, 0), (0, 0), (0, 0), (0, 0)], rfl⟩

/-- From two logs, crafting all makes what crafting twice makes. -/
theorem craftAll_refines_twoLogs : planks.Refines twoLogs := by
  apply (craftAll_refines_iff planks twoLogs (by simp [twoLogs]) (by decide) (by decide)).mpr
  rw [if_pos (by decide)]
  intro j hj
  have hle : j * 1 ≤ 2 := hj 6
  match j, hle with
  | 0, _ => exact Stock.fits_zero _
  | 1, _ => decide
  | 2, _ => decide

/-- Two logs, and no slot for planks. -/
def fullInventory : Inventory := ⟨false, [(6, 2), (1, 1), (2, 1), (3, 1), (4, 1), (5, 1), (7, 1), (8, 1)], rfl⟩

/-- One log, and no slot for planks. -/
def oneLogLost : Inventory := ⟨true, [(6, 1), (1, 1), (2, 1), (3, 1), (4, 1), (5, 1), (7, 1), (8, 1)], rfl⟩

/-- **Crafting all loses ingredients** where the inventory is full: crafting once leaves it, and
crafting all takes a log and gives nothing. -/
theorem craftAll_losesIngredients :
    (∀ slot ∈ fullInventory.inv, slot.1 = 0 ↔ slot.2 = 0) ∧ planks.craftOne fullInventory = fullInventory ∧
      planks.CraftsAll fullInventory oneLogLost ∧ ¬ planks.Refines fullInventory := by
  have hsubtract : planks.subtractIngredients fullInventory.inv = oneLogLost.inv := by
    apply stock_injective
    rw [stock_subtractIngredients]
    decide
  have hreqs : planks.hasReqs fullInventory.inv = true := by decide
  have hplace : planks.placeResult (planks.subtractIngredients fullInventory.inv) = none := by
    rw [hsubtract]
    decide
  refine ⟨by simp [fullInventory], ((craftOne_eq planks _).2 hreqs).1 hplace, ?_, ?_⟩
  · have hround := ((craftRound_eq planks fullInventory.inv).2 hreqs).1 hplace
    rw [hsubtract] at hround
    refine ⟨1, oneLogLost.inv, .round hround (ends_of_false planks _), ?_⟩
    rw [if_pos (by decide)]
    decide
  · intro h
    have hclean : planks.Clean fullInventory.inv := by
      intro _
      unfold Stock.Clean
      decide
    cases (refines_iff_runsOut planks (by decide) ⟨6, by decide⟩ hclean).mp h with
    | lacks hlacks =>
      rw [hreqs] at hlacks
      cases hlacks
    | craft _ _ hsome _ =>
      rw [hplace] at hsome
      cases hsome

end Recipe

end Distgard
