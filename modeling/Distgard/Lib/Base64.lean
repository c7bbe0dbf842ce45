import Mathlib.Data.List.Basic

/-!
# Bytes as text

Base 64 shows three bytes as four characters of six bits each. Where one or two bytes are left at
the end, zeros are added to make them up to a whole number of characters, and equals signs to make
those up to four; `decode` asks for both.

`decode_encode` is the round trip, and `mem_alphabet_of_mem_encode` says which characters are written.
-/

namespace Distgard.Lib.Base64

/-- The characters for six bits, in their order. -/
def alphabet : List Char :=
  (List.range 26).map (fun i => Char.ofNat ('A'.toNat + i)) ++ (List.range 26).map (fun i => Char.ofNat ('a'.toNat + i)) ++
    (List.range 10).map (fun i => Char.ofNat ('0'.toNat + i)) ++ ['+', '/']

/-- The character for six bits. -/
def sextet (n : ℕ) : Char := alphabet.getD n '='

/-- The six bits of a character. -/
def value (c : Char) : Option ℕ := if alphabet.idxOf c < 64 then some (alphabet.idxOf c) else none

/-- Show bytes as text. -/
def encode : List UInt8 → List Char
  | [] => []
  | [a] => [sextet (a.toNat / 4), sextet (a.toNat % 4 * 16), '=', '=']
  | [a, b] => [sextet (a.toNat / 4), sextet (a.toNat % 4 * 16 + b.toNat / 16), sextet (b.toNat % 16 * 4), '=']
  | a :: b :: c :: bytes =>
    sextet (a.toNat / 4) :: sextet (a.toNat % 4 * 16 + b.toNat / 16) :: sextet (b.toNat % 16 * 4 + c.toNat / 64) ::
      sextet (c.toNat % 64) :: encode bytes

/-- Read the last four characters, which stand for one or two bytes. -/
def decodeLast (x y : ℕ) (c : Char) : Option (List UInt8) :=
  if c = '=' then if y % 16 = 0 then some [UInt8.ofNat (x * 4 + y / 16)] else none
  else (value c).bind fun z =>
    if z % 4 = 0 then some [UInt8.ofNat (x * 4 + y / 16), UInt8.ofNat (y % 16 * 16 + z / 4)] else none

/-- Read bytes from text. -/
def decode : List Char → Option (List UInt8)
  | [] => some []
  | a :: b :: c :: d :: text => do
    let x ← value a
    let y ← value b
    if d = '=' ∧ text = [] then decodeLast x y c
    else do
      let z ← value c
      let w ← value d
      let bytes ← decode text
      return UInt8.ofNat (x * 4 + y / 16) :: UInt8.ofNat (y % 16 * 16 + z / 4) :: UInt8.ofNat (z % 4 * 64 + w) :: bytes
  | _ => none

theorem length_alphabet : alphabet.length = 64 := by decide

theorem nodup_alphabet : alphabet.Nodup := by decide +kernel

theorem sextet_eq {n : ℕ} (h : n < alphabet.length) : sextet n = alphabet.get ⟨n, h⟩ := by
  simp [sextet, h]

theorem value_sextet {n : ℕ} (h : n < 64) : value (sextet n) = some n := by
  have hlt : n < alphabet.length := by rwa [length_alphabet]
  have hidx : alphabet.idxOf (alphabet.get ⟨n, hlt⟩) = n := nodup_alphabet.idxOf_getElem n hlt
  rw [value, sextet_eq hlt, hidx, if_pos h]

theorem sextet_mem {n : ℕ} (h : n < 64) : sextet n ∈ alphabet := by
  have hlt : n < alphabet.length := by rwa [length_alphabet]
  rw [sextet_eq hlt]
  exact List.get_mem ..

theorem sextet_ne {n : ℕ} (h : n < 64) : sextet n ≠ '=' := by
  intro heq
  have hmem := sextet_mem h
  rw [heq] at hmem
  exact absurd hmem (by decide)

theorem ofNat_eq {a : UInt8} {n : ℕ} (h : n = a.toNat) : UInt8.ofNat n = a := by rw [h, UInt8.ofNat_toNat]

/-- **The round trip**: bytes that are shown are read. -/
theorem decode_encode (bytes : List UInt8) : decode (encode bytes) = some bytes := by
  have hlt : ∀ a : UInt8, a.toNat < 256 := fun a => a.toNat_lt
  induction bytes using encode.induct with
  | case1 => rfl
  | case2 a =>
    have ha := hlt a
    have hx : UInt8.ofNat (a.toNat / 4 * 4 + a.toNat % 4 * 16 / 16) = a := ofNat_eq (by omega)
    rw [encode, decode, value_sextet (by omega), value_sextet (by omega)]
    simp only [Option.bind_eq_bind, Option.bind_some, decodeLast, and_self, if_true, Nat.mul_mod_left, hx]
  | case3 a b =>
    have ha := hlt a
    have hb := hlt b
    have hx : UInt8.ofNat (a.toNat / 4 * 4 + (a.toNat % 4 * 16 + b.toNat / 16) / 16) = a := ofNat_eq (by omega)
    have hy : UInt8.ofNat ((a.toNat % 4 * 16 + b.toNat / 16) % 16 * 16 + b.toNat % 16 * 4 / 4) = b := ofNat_eq (by omega)
    have hz : b.toNat % 16 * 4 < 64 := by omega
    have hlow : b.toNat % 16 * 4 % 4 = 0 := by omega
    rw [encode, decode, value_sextet (by omega), value_sextet (by omega)]
    simp only [Option.bind_eq_bind, Option.bind_some, decodeLast, and_self, if_true, sextet_ne hz, if_false, value_sextet hz,
      hlow, hx, hy]
  | case4 a b c bytes ih =>
    have ha := hlt a
    have hb := hlt b
    have hc := hlt c
    have hx : UInt8.ofNat (a.toNat / 4 * 4 + (a.toNat % 4 * 16 + b.toNat / 16) / 16) = a := ofNat_eq (by omega)
    have hy : UInt8.ofNat ((a.toNat % 4 * 16 + b.toNat / 16) % 16 * 16 + (b.toNat % 16 * 4 + c.toNat / 64) / 4) = b :=
      ofNat_eq (by omega)
    have hz : UInt8.ofNat ((b.toNat % 16 * 4 + c.toNat / 64) % 4 * 64 + c.toNat % 64) = c := ofNat_eq (by omega)
    have hw : c.toNat % 64 < 64 := by omega
    rw [encode, decode, value_sextet (by omega), value_sextet (by omega), value_sextet (by omega), value_sextet hw, ih]
    simp only [Option.bind_eq_bind, Option.bind_some, sextet_ne hw, false_and, if_false, hx, hy, hz]
    rfl

theorem encode_ne_nil {bytes : List UInt8} (h : bytes ≠ []) : encode bytes ≠ [] := by
  intro hnil
  have hread := decode_encode bytes
  rw [hnil, decode, Option.some.injEq] at hread
  exact h hread.symm

/-- What is written are characters for six bits, and equals signs. -/
theorem mem_alphabet_of_mem_encode {bytes : List UInt8} {c : Char} (h : c ∈ encode bytes) : c ∈ alphabet ∨ c = '=' := by
  have hlt : ∀ a : UInt8, a.toNat < 256 := fun a => a.toNat_lt
  induction bytes using encode.induct with
  | case1 => simp [encode] at h
  | case2 a =>
    have ha := hlt a
    rw [encode] at h
    simp only [List.mem_cons, List.not_mem_nil, or_false] at h
    rcases h with rfl | rfl | rfl | rfl
    · exact .inl (sextet_mem (by omega))
    · exact .inl (sextet_mem (by omega))
    · exact .inr rfl
    · exact .inr rfl
  | case3 a b =>
    have ha := hlt a
    have hb := hlt b
    rw [encode] at h
    simp only [List.mem_cons, List.not_mem_nil, or_false] at h
    rcases h with rfl | rfl | rfl | rfl
    · exact .inl (sextet_mem (by omega))
    · exact .inl (sextet_mem (by omega))
    · exact .inl (sextet_mem (by omega))
    · exact .inr rfl
  | case4 a b d bytes ih =>
    have ha := hlt a
    have hb := hlt b
    have hd := hlt d
    rw [encode] at h
    simp only [List.mem_cons] at h
    rcases h with rfl | rfl | rfl | rfl | h
    · exact .inl (sextet_mem (by omega))
    · exact .inl (sextet_mem (by omega))
    · exact .inl (sextet_mem (by omega))
    · exact .inl (sextet_mem (by omega))
    · exact ih h

end Distgard.Lib.Base64
