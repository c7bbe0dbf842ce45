import Mathlib.Algebra.Order.Ring.Int
import Mathlib.Data.Rat.Defs

/-!
# Single-precision numbers

A single-precision number by its value: a rational number, an infinity, or none at all. The
casts are those that saturate: a number is rounded towards zero, one that is too large becomes
the largest, and none becomes `0`. A word becomes the nearest number with 24 binary digits, the
even one of two that are equally near. Thirty-two bits are a sign, eight digits of an exponent
and 23 of a fraction.

`asU32_ofU32` says that a word of at most 24 digits comes back as it was.
-/

namespace Distgard.Lib

/-- A single-precision number. -/
inductive Single where
  /-- No number. -/
  | nan
  /-- An infinity. -/
  | infinity (negative : Bool)
  /-- A finite number. -/
  | finite (q : ℚ)
  deriving DecidableEq

namespace Single

/-- What some bits stand for. -/
def ofBits (bits : UInt32) : Single :=
  let negative : Bool := 2 ^ 31 ≤ bits.toNat
  let exponent : ℕ := bits.toNat / 2 ^ 23 % 2 ^ 8
  let fraction : ℕ := bits.toNat % 2 ^ 23
  let sign : ℤ := if negative then -1 else 1
  if exponent = 255 then if fraction = 0 then infinity negative else nan
  else if exponent = 0 then finite (mkRat (sign * fraction) (2 ^ 149))
  else finite (mkRat (sign * ((2 ^ 23 + fraction) * 2 ^ exponent)) (2 ^ 150))

example : ofBits 0xC1200000 = finite (-10) := rfl

/-- As a word. -/
def asU32 : Single → UInt32
  | nan => 0
  | infinity negative => if negative then 0 else 0xFFFFFFFF
  | finite q => UInt32.ofNat (min q.floor.toNat 0xFFFFFFFF)

/-- As a whole number of 32 bits. -/
def asI32 : Single → ℤ
  | nan => 0
  | infinity negative => if negative then -2 ^ 31 else 2 ^ 31 - 1
  | finite q => max (-2 ^ 31) (min (2 ^ 31 - 1) (if 0 ≤ q then q.floor else q.ceil))

/-- Rounded to a multiple of a power of two, to the even multiple if there are two. -/
def roundTo (unit n : ℕ) : ℕ :=
  let m := n / unit
  let r := n % unit
  if unit < 2 * r ∨ (unit = 2 * r ∧ m % 2 = 1) then (m + 1) * unit else m * unit

/-- How many binary digits of a number are dropped. -/
def dropped (n : ℕ) : ℕ := n.log2 - 23

/-- A word as a number. -/
def ofU32 (n : UInt32) : Single := finite (roundTo (2 ^ dropped n.toNat) n.toNat : ℕ)

/-- What becomes of a word on the way to a number and back. -/
theorem asU32_ofU32_eq (n : UInt32) :
    (ofU32 n).asU32 = UInt32.ofNat (min (roundTo (2 ^ dropped n.toNat) n.toNat) 0xFFFFFFFF) := by
  rw [ofU32, asU32, ← Rat.intCast_natCast, Rat.floor_intCast, Int.toNat_natCast]

theorem roundTo_one (n : ℕ) : roundTo 1 n = n := by
  rw [roundTo]
  simp [Nat.mod_one]

/-- A word of at most 24 binary digits is a number. -/
theorem asU32_ofU32 {n : UInt32} (h : n.toNat < 2 ^ 24) : (ofU32 n).asU32 = n := by
  have hdropped : dropped n.toNat = 0 := by
    rw [dropped, Nat.sub_eq_zero_iff_le]
    rcases Nat.eq_zero_or_pos n.toNat with hz | hpos
    · simp [hz]
    · exact Nat.lt_succ_iff.mp ((Nat.log2_lt hpos.ne').mpr h)
  rw [asU32_ofU32_eq, hdropped, Nat.pow_zero, roundTo_one, Nat.min_eq_left (by omega), UInt32.ofNat_toNat]

end Single

end Distgard.Lib
