import Mathlib.Order.Nat

/-!
# Light colors

A light color is three channels. Light loses `2` of every channel with each step it
takes (`fade`), stopping at `0`, and goes on while some channel exceeds `1` (`spreads`).
The colors that one light shows along its way, `fadeN c k` after `k` steps, only get
darker, so that of two of them the channelwise brighter is one of the two.
-/

namespace Distgard

/-- A light color: the red, green and blue channels. -/
@[ext]
structure LightColor where
  /-- Red. -/
  x : ℕ
  /-- Green. -/
  y : ℕ
  /-- Blue. -/
  z : ℕ
  deriving DecidableEq, Repr

namespace LightColor

/-- No light. -/
def ZERO : LightColor := ⟨0, 0, 0⟩

/-- The color after one more step. -/
def fade (c : LightColor) : LightColor := ⟨c.x - 2, c.y - 2, c.z - 2⟩

/-- The color after `k` steps. -/
def fadeN (c : LightColor) (k : ℕ) : LightColor := ⟨c.x - 2 * k, c.y - 2 * k, c.z - 2 * k⟩

/-- The light goes on to the neighbors. -/
def spreads (c : LightColor) : Bool := c.x > 1 || c.y > 1 || c.z > 1

/-- The channelwise brighter of two colors. -/
def sup (c d : LightColor) : LightColor :=
  ⟨if c.x < d.x then d.x else c.x, if c.y < d.y then d.y else c.y, if c.z < d.z then d.z else c.z⟩

/-- The brightest channel. -/
def brightest (c : LightColor) : ℕ := max c.x (max c.y c.z)

/-- No channel of the one is brighter than the same channel of the other. -/
instance : LE LightColor := ⟨fun c d => c.x ≤ d.x ∧ c.y ≤ d.y ∧ c.z ≤ d.z⟩

theorem le_def {c d : LightColor} : c ≤ d ↔ c.x ≤ d.x ∧ c.y ≤ d.y ∧ c.z ≤ d.z := Iff.rfl

theorem le_refl (c : LightColor) : c ≤ c := ⟨Nat.le_refl _, Nat.le_refl _, Nat.le_refl _⟩

theorem le_trans {a b c : LightColor} (h : a ≤ b) (h' : b ≤ c) : a ≤ c :=
  ⟨h.1.trans h'.1, h.2.1.trans h'.2.1, h.2.2.trans h'.2.2⟩

theorem le_antisymm {a b : LightColor} (h : a ≤ b) (h' : b ≤ a) : a = b :=
  LightColor.ext (Nat.le_antisymm h.1 h'.1) (Nat.le_antisymm h.2.1 h'.2.1) (Nat.le_antisymm h.2.2 h'.2.2)

theorem zero_le (c : LightColor) : ZERO ≤ c := ⟨Nat.zero_le _, Nat.zero_le _, Nat.zero_le _⟩

theorem fade_mono {c d : LightColor} (h : c ≤ d) : c.fade ≤ d.fade :=
  ⟨Nat.sub_le_sub_right h.1 2, Nat.sub_le_sub_right h.2.1 2, Nat.sub_le_sub_right h.2.2 2⟩

@[simp] theorem fadeN_zero (c : LightColor) : c.fadeN 0 = c := by simp [fadeN]

theorem fade_fadeN (c : LightColor) (k : ℕ) : (c.fadeN k).fade = c.fadeN (k + 1) := by
  simp only [fade, fadeN, LightColor.mk.injEq]
  omega

/-- Light only gets darker on its way. -/
theorem fadeN_anti (c : LightColor) {j k : ℕ} (h : j ≤ k) : c.fadeN k ≤ c.fadeN j := by
  simp only [le_def, fadeN]
  omega

theorem spreads_mono {c d : LightColor} (h : c ≤ d) (hc : c.spreads = true) : d.spreads = true := by
  simp only [spreads, Bool.or_eq_true, decide_eq_true_eq, le_def] at *
  omega

/-- A light that still spreads after `k` steps has at least one channel left to lose. -/
theorem brightest_fade {c : LightColor} (h : c.spreads = true) : c.fade.brightest + 2 ≤ c.brightest := by
  simp only [spreads, Bool.or_eq_true, decide_eq_true_eq, brightest, fade] at *
  omega

theorem le_sup_left (c d : LightColor) : c ≤ c.sup d := by
  simp only [le_def, sup]
  refine ⟨?_, ?_, ?_⟩ <;> split <;> omega

theorem le_sup_right (c d : LightColor) : d ≤ c.sup d := by
  simp only [le_def, sup]
  refine ⟨?_, ?_, ?_⟩ <;> split <;> omega

theorem sup_of_le {c d : LightColor} (h : c ≤ d) : c.sup d = d := by
  simp only [le_def, sup] at *
  ext <;> simp only <;> split <;> omega

theorem sup_of_ge {c d : LightColor} (h : d ≤ c) : c.sup d = c := by
  simp only [le_def, sup] at *
  ext <;> simp only <;> split <;> omega

/-- Of the colors of one light at two places, the brighter is the one nearer to it. -/
theorem sup_fadeN (c : LightColor) (j k : ℕ) : (c.fadeN j).sup (c.fadeN k) = c.fadeN (min j k) := by
  rcases Nat.le_total j k with h | h
  · rw [Nat.min_eq_left h, sup_of_ge (fadeN_anti c h)]
  · rw [Nat.min_eq_right h, sup_of_le (fadeN_anti c h)]

end LightColor

end Distgard
