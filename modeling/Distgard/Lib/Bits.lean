import Mathlib.Data.Nat.Bitwise

/-!
# Flags and fields in a word

A word of 32 bits keeps several things in disjoint parts of it, each read with a mask. What
is done in one part leaves the others, and a flag is one bit.

A field is a number in some bits of a word. Fields are put side by side with shifts, which adds
them up (`or_eq_add`), and read with a shift and a mask, which is a quotient and a remainder
(`toNat_shiftRight_and`, `toNat_and_shiftRight`).
-/

namespace Distgard.Lib.Bits

theorem xor_and_distrib (w m k : UInt32) : (w ^^^ m) &&& k = (w &&& k) ^^^ (m &&& k) := by
  rw [← UInt32.toBitVec_inj]
  simp only [UInt32.toBitVec_and, UInt32.toBitVec_xor]
  ext i
  simp only [BitVec.getElem_and, BitVec.getElem_xor, Bool.and_xor_distrib_right]

theorem or_and_distrib (w m k : UInt32) : (w ||| m) &&& k = w &&& k ||| m &&& k := by
  rw [← UInt32.toBitVec_inj]
  simp only [UInt32.toBitVec_and, UInt32.toBitVec_or, BitVec.and_or_distrib_right]

/-- Turning bits outside of a part leaves the part. -/
theorem xor_and_of_disjoint {m k : UInt32} (h : m &&& k = 0) (w : UInt32) : (w ^^^ m) &&& k = w &&& k := by
  rw [xor_and_distrib, h, UInt32.xor_zero]

/-- Setting bits outside of a part leaves the part. -/
theorem or_and_of_disjoint {m k : UInt32} (h : m &&& k = 0) (w : UInt32) : (w ||| m) &&& k = w &&& k := by
  rw [or_and_distrib, h, UInt32.or_zero]

/-- Clearing bits outside of a part leaves the part. -/
theorem clear_and_of_disjoint {m k : UInt32} (h : ~~~m &&& k = k) (w : UInt32) : w &&& ~~~m &&& k = w &&& k := by
  rw [UInt32.and_assoc, h]

/-- Bits that are turned can be turned before or after others are set. -/
theorem xor_or_of_disjoint {m k : UInt32} (h : m &&& k = 0) (w : UInt32) : (w ^^^ m) ||| k = (w ||| k) ^^^ m := by
  rw [← UInt32.toBitVec_inj] at h ⊢
  simp only [UInt32.toBitVec_and, UInt32.toBitVec_or, UInt32.toBitVec_xor, UInt32.toBitVec_zero] at h ⊢
  ext i hi
  have hbit : (m.toBitVec[i] && k.toBitVec[i]) = false := by
    rw [← BitVec.getElem_and, h, BitVec.getElem_zero]
  simp only [BitVec.getElem_or, BitVec.getElem_xor]
  revert hbit
  cases m.toBitVec[i] <;> cases k.toBitVec[i] <;> simp

/-- A flag is set or not. -/
theorem flag_cases (w : UInt32) {m : UInt32} {i : ℕ} (h : m.toNat = 2 ^ i) : w &&& m = 0 ∨ w &&& m = m := by
  have hand : (w &&& m).toNat = (w.toNat.testBit i).toNat * 2 ^ i := by rw [UInt32.toNat_and, h, Nat.and_two_pow]
  cases hbit : w.toNat.testBit i with
  | false =>
    left
    rw [← UInt32.toNat_inj, hand, hbit, Bool.toNat_false, Nat.zero_mul, UInt32.toNat_zero]
  | true =>
    right
    rw [← UInt32.toNat_inj, hand, hbit, Bool.toNat_true, Nat.one_mul, h]

/-! ### Fields -/

/-- Fields that are put below others are added to them. -/
theorem or_eq_add {a b k : ℕ} (ha : 2 ^ k ∣ a) (hb : b < 2 ^ k) : a ||| b = a + b := by
  obtain ⟨c, rfl⟩ := ha
  exact (Nat.two_pow_add_eq_or_of_lt hb c).symm

/-- What is above a field is cut off. -/
theorem toNat_and_mask (w : UInt32) {m : UInt32} {n : ℕ} (hm : m.toNat = 2 ^ n - 1) :
    (w &&& m).toNat = w.toNat % 2 ^ n := by
  rw [UInt32.toNat_and, hm, Nat.and_two_pow_sub_one_eq_mod]

/-- A field of some bits is shifted up, where there is room for them. -/
theorem toNat_shiftLeft_of_lt {w k : UInt32} {n : ℕ} (hw : w.toNat < 2 ^ n) (hk : k.toNat < 32)
    (hroom : n + k.toNat ≤ 32) : (w <<< k).toNat = w.toNat * 2 ^ k.toNat := by
  have hfits : w.toNat * 2 ^ k.toNat < 2 ^ 32 :=
    calc w.toNat * 2 ^ k.toNat < 2 ^ n * 2 ^ k.toNat := Nat.mul_lt_mul_of_pos_right hw (Nat.two_pow_pos _)
      _ = 2 ^ (n + k.toNat) := (Nat.pow_add _ _ _).symm
      _ ≤ 2 ^ 32 := Nat.pow_le_pow_right (by decide) hroom
  rw [UInt32.toNat_shiftLeft, Nat.mod_eq_of_lt hk, Nat.shiftLeft_eq, Nat.mod_eq_of_lt hfits]

/-- A field that is shifted down, and what is above it cut off. -/
theorem toNat_shiftRight_and (w : UInt32) {k m : UInt32} {n : ℕ} (hk : k.toNat < 32) (hm : m.toNat = 2 ^ n - 1) :
    ((w >>> k) &&& m).toNat = w.toNat / 2 ^ k.toNat % 2 ^ n := by
  rw [toNat_and_mask _ hm, UInt32.toNat_shiftRight, Nat.mod_eq_of_lt hk, Nat.shiftRight_eq_div_pow]

/-- A field of which the rest is cut off before it is shifted down. -/
theorem toNat_and_shiftRight (w : UInt32) {k m : UInt32} {n : ℕ} (hk : k.toNat < 32)
    (hm : m.toNat >>> k.toNat = 2 ^ n - 1) : ((w &&& m) >>> k).toNat = w.toNat / 2 ^ k.toNat % 2 ^ n := by
  rw [UInt32.toNat_shiftRight, UInt32.toNat_and, Nat.mod_eq_of_lt hk, Nat.shiftRight_and_distrib, hm,
    Nat.and_two_pow_sub_one_eq_mod, Nat.shiftRight_eq_div_pow]

end Distgard.Lib.Bits
