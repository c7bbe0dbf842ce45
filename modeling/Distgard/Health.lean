import Distgard.Items
import Mathlib.Algebra.Order.Ring.Int
import Mathlib.Algebra.Order.Floor.Ring
import Mathlib.Data.Rat.Floor
import Mathlib.Tactic.GCongr
import Mathlib.Tactic.Positivity

/-!
# Health

Damage comes as a byte. `take_damage` reads it as a signed byte before it subtracts, so 128 and
more count as negative; the difference wraps, and is kept from below only. Food is added to the
health up to twenty.

## The model

* `Game.newamount` is what the damage leaves, `Game.Dies` the test for death.
* `fallDamage` turns the time of a fall into damage. The cast to a byte cuts off the fraction
  and saturates at both ends, so a negative time gives none.
* `Game.Bears` says that the damage does not reach the part of the byte where the difference
  comes out positive again; `Event.Bearable` asks it of the hits of a run.

## What is proved

* `Game.toInt_newamount` — what is left, in whole numbers. From `health + 129` on it is more than
  there was.
* `Game.Healthy.happens` — each event keeps the health between one and twenty, if its hit can be
  borne.
* `Game.health_bearable` — so does a run; in every state it reaches, a hit keeps to the range and
  leaves no more health than before, or kills, exactly when it can be borne; and a longer fall
  is at least as bad as a shorter one unless it alone cannot be borne.
* `Game.longFall_heals` — a fall that cannot be borne leaves more than twenty.
-/

namespace Distgard

open Lib

/-- The damage of a fall of time `fd`. -/
def fallDamage (fd : ℚ) : UInt8 := UInt8.ofNat (min ⌊fd * 20⌋.toNat 255)

@[simp] theorem toNat_fallDamage (fd : ℚ) : (fallDamage fd).toNat = min ⌊fd * 20⌋.toNat 255 := by
  rw [fallDamage, UInt8.toNat_ofNat']
  omega

/-- A longer fall does no less damage. -/
theorem fallDamage_mono {fd fd' : ℚ} (h : fd ≤ fd') : (fallDamage fd).toNat ≤ (fallDamage fd').toNat := by
  have hfloor : ⌊fd * 20⌋ ≤ ⌊fd' * 20⌋ := by gcongr
  rw [toNat_fallDamage, toNat_fallDamage]
  omega

namespace Game

/-- What the damage leaves. -/
def newamount (g : Game) (amount : UInt8) : Int8 := max (g.health - amount.toInt8) 0

/-- The damage kills. -/
def Dies (g : Game) (amount : UInt8) : Prop := g.newamount amount ≤ 0

instance (g : Game) (amount : UInt8) : Decidable (g.Dies amount) := inferInstanceAs (Decidable (_ ≤ _))

/-- The health is in its range. -/
def Healthy (g : Game) : Prop := 1 ≤ g.health ∧ g.health ≤ 20

instance (g : Game) : Decidable g.Healthy := inferInstanceAs (Decidable (_ ∧ _))

/-- The damage can be borne: it is less than what makes the difference wrap to a positive one. -/
def Bears (g : Game) (amount : UInt8) : Prop := (amount.toNat : ℤ) < g.health.toInt + 129

instance (g : Game) (amount : UInt8) : Decidable (g.Bears amount) := inferInstanceAs (Decidable (_ < _))

end Game

/-- If the event is a hit, it can be borne. -/
def Event.Bearable (g : Game) (event : Event) : Prop :=
  match event with
  | .takeDamage _ amount => g.Bears amount
  | _ => True

namespace Game

/-! ### One hit -/

variable {g : Game}

theorem toInt_max (a b : Int8) : (max a b).toInt = max a.toInt b.toInt := by
  show (if a ≤ b then b else a).toInt = _
  simp only [Int8.le_iff_toInt_le]
  split <;> omega

theorem healthy_iff : g.Healthy ↔ 1 ≤ g.health.toInt ∧ g.health.toInt ≤ 20 := by
  simp only [Healthy, Int8.le_iff_toInt_le]
  rfl

/-- What is left, in whole numbers. -/
theorem toInt_newamount (h : g.Healthy) (amount : UInt8) : (g.newamount amount).toInt =
    if g.Bears amount then max (g.health.toInt - amount.toNat) 0 else g.health.toInt + 256 - amount.toNat := by
  obtain ⟨hpos, hle⟩ := healthy_iff.mp h
  have hbyte : amount.toNat < 256 := amount.toNat_lt
  have hamount : amount.toInt8.toInt = (amount.toNat : ℤ).bmod 256 := BitVec.toInt_eq_toNat_bmod _
  have hzero : (0 : Int8).toInt = 0 := rfl
  rw [newamount, toInt_max, Int8.toInt_sub, hamount, hzero]
  simp only [Int.bmod_def, Bears]
  split <;> omega

/-- It kills from the health on, as long as it can be borne. -/
theorem dies_iff (h : g.Healthy) (amount : UInt8) :
    g.Dies amount ↔ g.health.toInt ≤ amount.toNat ∧ g.Bears amount := by
  obtain ⟨hpos, hle⟩ := healthy_iff.mp h
  have hbyte : amount.toNat < 256 := amount.toNat_lt
  have hzero : (0 : Int8).toInt = 0 := rfl
  rw [Dies, Int8.le_iff_toInt_le, toInt_newamount h, hzero]
  by_cases hbears : g.Bears amount
  · simp only [hbears, if_true, and_true]
    omega
  · simp only [hbears, if_false, and_false, iff_false]
    omega

/-- Who dies is at twenty again. -/
theorem health_takeDamage (draws : ℕ → UInt32) (amount : UInt8) :
    (g.takeDamage draws amount).health = if g.Dies amount then 20 else g.newamount amount := by
  rw [takeDamage]
  split
  · next hdead => exact (if_pos hdead).symm
  · next halive => exact (if_neg halive).symm

variable (draws : ℕ → UInt32)

/-- Who survives has lost the damage, or could not bear it and has gained what is missing in it
to 256. -/
theorem survives (h : g.Healthy) {amount : UInt8} (halive : ¬ g.Dies amount) :
    (g.Bears amount ∧ (amount.toNat : ℤ) < g.health.toInt ∧
      (g.takeDamage draws amount).health.toInt = g.health.toInt - amount.toNat) ∨
    (¬ g.Bears amount ∧ (g.takeDamage draws amount).health.toInt = g.health.toInt + (256 - amount.toNat)) := by
  rw [health_takeDamage, if_neg halive, toInt_newamount h]
  rw [dies_iff h] at halive
  by_cases hbears : g.Bears amount
  · rw [if_pos hbears]
    have hless : (amount.toNat : ℤ) < g.health.toInt := not_le.mp fun hmore => halive ⟨hmore, hbears⟩
    refine Or.inl ⟨hbears, hless, ?_⟩
    omega
  · rw [if_neg hbears]
    refine Or.inr ⟨hbears, ?_⟩
    omega

/-- A hit leaves the health in its range, and no more of it than before unless it kills. -/
structure Hurts (g : Game) (draws : ℕ → UInt32) (amount : UInt8) : Prop where
  /-- The health stays in its range. -/
  healthy : (g.takeDamage draws amount).Healthy
  /-- It does not grow, except that who dies starts anew. -/
  le : ¬ g.Dies amount → (g.takeDamage draws amount).health ≤ g.health

/-- A hit does so exactly when it can be borne. -/
theorem hurts_iff (h : g.Healthy) (amount : UInt8) : g.Hurts draws amount ↔ g.Bears amount := by
  obtain ⟨hpos, hle⟩ := healthy_iff.mp h
  have hbyte : amount.toNat < 256 := amount.toNat_lt
  by_cases hdead : g.Dies amount
  · refine iff_of_true ⟨?_, fun halive => absurd hdead halive⟩ ((dies_iff h amount).mp hdead).2
    rw [Healthy, health_takeDamage, if_pos hdead]
    decide
  · rcases survives draws h hdead with ⟨hbears, hless, hhealth⟩ | ⟨hbears, hhealth⟩
    · refine iff_of_true ⟨healthy_iff.mpr ?_, fun _ => Int8.le_iff_toInt_le.mpr ?_⟩ hbears <;> omega
    · refine iff_of_false (fun hhurts => ?_) hbears
      have hgrown := Int8.le_iff_toInt_le.mp (hhurts.le hdead)
      omega

/-- A fall of time `fd'` is at least as bad as one of time `fd`: it kills where that kills, and
who survives both has no more health left. -/
structure Worse (g : Game) (draws : ℕ → UInt32) (fd fd' : ℚ) : Prop where
  /-- Where the one kills, the other does. -/
  dies : g.Dies (fallDamage fd) → g.Dies (fallDamage fd')
  /-- What is left does not grow. -/
  le : ¬ g.Dies (fallDamage fd) → ¬ g.Dies (fallDamage fd') →
    (g.takeDamage draws (fallDamage fd')).health ≤ (g.takeDamage draws (fallDamage fd)).health

/-- A longer fall is at least as bad exactly when it can be borne, or the shorter one cannot. -/
theorem worse_iff (h : g.Healthy) {fd fd' : ℚ} (hfall : fd ≤ fd') :
    g.Worse draws fd fd' ↔ (g.Bears (fallDamage fd) → g.Bears (fallDamage fd')) := by
  have hmono : ((fallDamage fd).toNat : ℤ) ≤ (fallDamage fd').toNat := by exact_mod_cast fallDamage_mono hfall
  have hbyte : (fallDamage fd').toNat < 256 := (fallDamage fd').toNat_lt
  constructor
  · intro hworse hbears
    by_contra hbears'
    -- Who does not bear the longer fall is healed by it, and so has borne the shorter one alive.
    have halive' : ¬ g.Dies (fallDamage fd') := fun hdead => hbears' ((dies_iff h _).mp hdead).2
    have halive : ¬ g.Dies (fallDamage fd) := fun hdead => halive' (hworse.dies hdead)
    have hless := Int8.le_iff_toInt_le.mp (hworse.le halive halive')
    rcases survives draws h halive with ⟨-, -, hhealth⟩ | ⟨hnot, -⟩
    · rcases survives draws h halive' with ⟨hbears, -, -⟩ | ⟨-, hhealth'⟩
      · exact hbears' hbears
      · omega
    · exact hnot hbears
  · intro hbears
    constructor
    · intro hdead
      obtain ⟨hmore, hborne⟩ := (dies_iff h _).mp hdead
      exact (dies_iff h _).mpr ⟨hmore.trans hmono, hbears hborne⟩
    · intro halive halive'
      rw [Int8.le_iff_toInt_le]
      rcases survives draws h halive with ⟨hborne, hless, hhealth⟩ | ⟨hnot, hhealth⟩
      · rcases survives draws h halive' with ⟨-, -, hhealth'⟩ | ⟨hnot', -⟩
        · omega
        · exact absurd (hbears hborne) hnot'
      · rcases survives draws h halive' with ⟨hborne', -, -⟩ | ⟨-, hhealth'⟩
        · exact absurd (lt_of_le_of_lt hmono hborne') hnot
        · omega

/-! ### Runs -/

theorem Healthy.of_eq (h : g.Healthy) {g' : Game} (hsame : g'.health = g.health) : g'.Healthy := by
  rwa [Healthy, hsame]

/-- Drawing the slots does nothing to the health. -/
theorem Healthy.updateInventory (h : g.Healthy) : g.updateInventory.Healthy := by
  apply h.of_eq
  unfold Game.updateInventory
  split <;> rfl

/-- Food adds six, up to twenty. -/
theorem Healthy.eat (h : g.Healthy) (slot : Slot) : (g.eat slot).Healthy := by
  obtain ⟨hpos, hle⟩ := healthy_iff.mp h
  rw [Game.eat]
  split
  · have hsum : (g.health + Int8.ofInt (Blocks.getFoodStats slot.1).1).toInt = g.health.toInt + 6 := by
      rw [Int8.toInt_add]
      show (g.health.toInt + 6).bmod 256 = _
      rw [Int.bmod_def]
      split <;> omega
    have htwenty : (20 : Int8).toInt = 20 := rfl
    rw [healthy_iff]
    show 1 ≤ (if _ ≤ _ then _ else _ : Int8).toInt ∧ (if _ ≤ _ then _ else _ : Int8).toInt ≤ 20
    split
    · next hsmall =>
      rw [Int8.le_iff_toInt_le, hsum, htwenty] at hsmall
      omega
    · omega
  · exact h

/-- The place ray may eat, and does nothing else to the health. -/
theorem Healthy.castPlaceRay (h : g.Healthy) (e : ℕ → Entropy) (aim : Aim) : (g.castPlaceRay e aim).Healthy := by
  have hspec := castPlaceRay_spec e aim g
  generalize g.castPlaceRay e aim = g' at hspec ⊢
  cases hspec with
  | air => exact h.eat _
  | door =>
    apply Healthy.eat
    exact h.of_eq rfl
  | @chest blockHit =>
    have heaten : (Game.eat g.selected { g with currentChest := blockHit }).Healthy := by
      apply Healthy.eat
      exact h.of_eq rfl
    exact heaten.updateInventory.of_eq rfl
  | idle => exact h.eat _
  | blocked => exact h
  | placed =>
    apply Healthy.eat
    exact h.of_eq rfl

/-- A click does nothing to the health. -/
theorem Healthy.mouseButton (h : g.Healthy) (moused : SlotIndexType) : (g.mouseButton moused).Healthy := by
  rcases mouseButton_cases moused g with hsame | ⟨-, clicked, hclick, hdone⟩
  · rwa [hsame]
  · have hclicked : clicked.Healthy := by
      cases hclick <;> exact h.of_eq rfl
    rcases hdone with hdone | hdone
    · rwa [hdone]
    · rw [hdone]
      exact hclicked.updateInventory

/-- **An event keeps the health in its range**, if its hit can be borne. -/
theorem Healthy.happens (h : g.Healthy) {event : Event} (hbears : event.Bearable g) {g' : Game}
    (hhappens : g.Happens event g') : g'.Healthy := by
  cases event with
  | castPlaceRay e aim => exact (show g' = _ from hhappens) ▸ h.castPlaceRay e aim
  | castBreakRay e draw aim =>
    rw [Happens, CastBreakRay] at hhappens
    split at hhappens
    · exact hhappens ▸ h
    · dsimp only at hhappens
      split at hhappens
      · obtain ⟨k, cs, set, -, rfl⟩ := hhappens
        exact h.of_eq rfl
      · split at hhappens
        · exact hhappens ▸ h.of_eq rfl
        · exact hhappens ▸ h.of_eq rfl
  | mouseButton moused => exact (show g' = _ from hhappens) ▸ h.mouseButton moused
  | takeDamage draws amount => exact (show g' = _ from hhappens) ▸ ((hurts_iff draws h amount).mpr hbears).healthy
  | updateInventory => exact (show g' = _ from hhappens) ▸ h.updateInventory
  | exitMenu | scroll invrowchange | updateDrops near => exact (show g' = _ from hhappens) ▸ h.of_eq rfl
  | craftOne recipe => exact hhappens.2 ▸ h.of_eq rfl
  | craftAll recipe =>
    obtain ⟨-, inv, -, rfl⟩ := hhappens
    exact h.of_eq rfl

/-- **The health of a game**: in every run whose hits can be borne, the health is between one and
twenty. From each state of such a run, a hit leaves the health in its range, and no more of it
unless it kills, exactly when it can be borne; and of two falls the longer is at least as bad,
exactly unless it cannot be borne and the shorter one can. -/
theorem health_bearable {g : Game} (h : Reached Healthy Event.Bearable Happens g) :
    g.Healthy ∧
    (∀ draws amount, g.Hurts draws amount ↔ g.Bears amount) ∧
    ∀ draws fd fd', fd ≤ fd' → (g.Worse draws fd fd' ↔ (g.Bears (fallDamage fd) → g.Bears (fallDamage fd'))) := by
  have hhealthy : g.Healthy := h.invariant (fun _ => id) fun _ _ _ hg hbears hhappens => hg.happens hbears hhappens
  exact ⟨hhealthy, fun draws => hurts_iff draws hhealthy, fun draws _ _ => worse_iff draws hhealthy⟩

/-- A fall of half a second at the start costs half of the health. A fall of twelve seconds and
three quarters could then not be borne. -/
theorem health_bearable_halfSecond :
    let g := newGame.takeDamage (fun _ => 0) (fallDamage (1 / 2))
    g.health = 10 ∧ g.Healthy ∧ ¬ g.Hurts (fun _ => 0) (fallDamage (51 / 4)) := by
  have hbears : newGame.Bears (fallDamage (1 / 2)) := by decide +kernel
  have hreached := health_bearable
    (.step (.takeDamage (fun _ => 0) (fallDamage (1 / 2))) (.start (by decide)) hbears rfl)
  refine ⟨by decide +kernel, hreached.1, ?_⟩
  rw [hreached.2.1]
  decide +kernel

/-- At the start a fall of one second kills. A fall of twelve seconds and three quarters does
not, and leaves more health than there was, and more than twenty. -/
theorem longFall_heals :
    let fallen := newGame.takeDamage (fun _ => 0) (fallDamage (51 / 4))
    Reached Healthy (fun _ _ => True) Happens fallen ∧ ¬ fallen.Healthy ∧ fallen.health = 21 ∧
      ¬ newGame.Hurts (fun _ => 0) (fallDamage (51 / 4)) ∧
      newGame.Dies (fallDamage 1) ∧ ¬ newGame.Worse (fun _ => 0) 1 (51 / 4) := by
  have hdies : newGame.Dies (fallDamage 1) := by decide +kernel
  have halive : ¬ newGame.Dies (fallDamage (51 / 4)) := by decide +kernel
  have hhealth : (newGame.takeDamage (fun _ => 0) (fallDamage (51 / 4))).health = 21 := by decide +kernel
  have hsick : ¬ (newGame.takeDamage (fun _ => 0) (fallDamage (51 / 4))).Healthy := by
    rw [Healthy, hhealth]
    decide
  refine ⟨?_, hsick, hhealth, fun hhurts => hsick hhurts.healthy, hdies, fun hworse => halive (hworse.dies hdies)⟩
  exact .step (.takeDamage (fun _ => 0) (fallDamage (51 / 4))) (.start (by decide)) trivial rfl

end Game

end Distgard
