import Distgard.Lib.Codec

/-!
# Encodings that tell their own end

A way to write values as bytes of which the reader finds the end by itself, so that other values
can follow. A value may have no encoding, and bytes may encode nothing; but what is read is what
was written, and it was written in one way only.

Values of a fixed size are written so, and, one after the other, pairs and vectors; a vector is
preceded by its length. An enumeration with data is a list of cases: the number of the case is
written first, and then its data.

`fromSlice_eq_some` is the rule the proofs use: reading all of some bytes is the inverse of writing.
-/

namespace Distgard.Lib

universe u v

/-- A way to write values as bytes that tells where it ends. -/
structure Wire (A : Type u) where
  /-- Write a value, if it can be written. -/
  write : A → Option (List UInt8)
  /-- Read a value, and leave the bytes after it. -/
  read : List UInt8 → Option (A × List UInt8)
  /-- What is read is what was written. -/
  read_eq_some : ∀ bytes a rest, read bytes = some (a, rest) ↔ ∃ w, write a = some w ∧ bytes = w ++ rest

namespace Wire

variable {A : Type u} {B : Type v} (c : Wire A)

/-- Read a value that takes up all of the bytes. -/
def fromSlice (bytes : List UInt8) : Option A :=
  match c.read bytes with
  | some (a, []) => some a
  | _ => none

/-- **Reading all of some bytes is the inverse of writing.** -/
theorem fromSlice_eq_some {bytes : List UInt8} {a : A} : c.fromSlice bytes = some a ↔ c.write a = some bytes := by
  have hread : c.fromSlice bytes = some a ↔ c.read bytes = some (a, []) := by
    unfold fromSlice
    split
    · next a' heq => simp [heq]
    · next hne =>
      constructor
      · intro h
        cases h
      · intro h
        exact absurd h (hne a)
  rw [hread, c.read_eq_some]
  constructor
  · rintro ⟨w, hw, rfl⟩
    rw [List.append_nil]
    exact hw
  · intro hw
    exact ⟨bytes, hw, (List.append_nil bytes).symm⟩

/-! ### Ways to make encodings -/

/-- Values of a fixed size. -/
def ofCodec (c : Codec A) : Wire A where
  write a := some (c.serialize a)
  read bytes := (c.deserialize (bytes.take c.size)).map fun a => (a, bytes.drop c.size)
  read_eq_some bytes a rest := by
    simp only [Option.map_eq_some_iff, c.deserialize_eq_some, Option.some.injEq]
    constructor
    · rintro ⟨_, ha, ⟨⟩⟩
      exact ⟨_, rfl, by rw [ha, List.take_append_drop]⟩
    · rintro ⟨_, rfl, rfl⟩
      refine ⟨a, ?_, ?_⟩
      · rw [List.take_left' (c.length_serialize a)]
      · rw [List.drop_left' (c.length_serialize a)]

@[simp] theorem write_ofCodec (c : Codec A) (a : A) : (ofCodec c).write a = some (c.serialize a) := rfl

/-- The values that are those of another type in another form; not all of either type need be. -/
def narrow (f : B → Option A) (g : A → Option B) (h : ∀ a b, g a = some b ↔ f b = some a) : Wire B where
  write b := (f b).bind c.write
  read bytes := (c.read bytes).bind fun s => (g s.1).map fun b => (b, s.2)
  read_eq_some bytes b rest := by
    simp only [Option.bind_eq_some_iff, Option.map_eq_some_iff]
    constructor
    · rintro ⟨⟨a, rest'⟩, hread, _, hb, ⟨⟩⟩
      obtain ⟨w, hw, rfl⟩ := (c.read_eq_some _ _ _).mp hread
      exact ⟨w, ⟨a, (h a b).mp hb, hw⟩, rfl⟩
    · rintro ⟨w, ⟨a, ha, hw⟩, rfl⟩
      exact ⟨(a, rest), (c.read_eq_some _ _ _).mpr ⟨w, hw, rfl⟩, b, (h a b).mpr ha, rfl⟩

/-- The same values in another form. -/
def equiv (e : A ≃ B) : Wire B :=
  c.narrow (fun b => some (e.symm b)) (fun a => some (e a)) fun a b => by
    rw [Option.some.injEq, Option.some.injEq, Equiv.symm_apply_eq]
    exact eq_comm

@[simp] theorem write_equiv (e : A ≃ B) (b : B) : (c.equiv e).write b = c.write (e.symm b) := rfl

/-- The values that pass a test. -/
def only (p : A → Bool) : Wire A :=
  c.narrow (fun a => if p a then some a else none) (fun a => if p a then some a else none) fun a b => by
    by_cases hab : a = b
    · rw [hab]
    · have hba : b ≠ a := fun h => hab h.symm
      by_cases ha : p a = true <;> by_cases hb : p b = true <;> simp [ha, hb, hab, hba]

@[simp] theorem isSome_write_only (p : A → Bool) (a : A) :
    ((c.only p).write a).isSome = (p a && (c.write a).isSome) := by
  unfold only narrow
  by_cases ha : p a = true <;> simp [ha]

/-- One after the other. -/
def prod (d : Wire B) : Wire (A × B) where
  write p := (c.write p.1).bind fun w => (d.write p.2).map (w ++ ·)
  read bytes := (c.read bytes).bind fun s => (d.read s.2).map fun t => ((s.1, t.1), t.2)
  read_eq_some bytes p rest := by
    obtain ⟨a, b⟩ := p
    simp only [Option.bind_eq_some_iff, Option.map_eq_some_iff]
    constructor
    · rintro ⟨⟨a', rest'⟩, hread, ⟨b', rest''⟩, hread', ⟨⟩⟩
      obtain ⟨w, hw, rfl⟩ := (c.read_eq_some _ _ _).mp hread
      obtain ⟨w', hw', rfl⟩ := (d.read_eq_some _ _ _).mp hread'
      exact ⟨w ++ w', ⟨w, hw, w', hw', rfl⟩, (List.append_assoc w w' rest'').symm⟩
    · rintro ⟨_, ⟨w, hw, w', hw', rfl⟩, rfl⟩
      refine ⟨(a, w' ++ rest), (c.read_eq_some _ _ _).mpr ⟨w, hw, List.append_assoc w w' rest⟩, (b, rest), ?_, rfl⟩
      exact (d.read_eq_some _ _ _).mpr ⟨w', hw', rfl⟩

@[simp] theorem isSome_write_prod (d : Wire B) (p : A × B) :
    ((c.prod d).write p).isSome = ((c.write p.1).isSome && (d.write p.2).isSome) := by
  show ((c.write p.1).bind _).isSome = _
  rcases c.write p.1 with _ | w
  · rfl
  · rw [Option.bind_some, Option.isSome_map, Option.isSome_some, Bool.true_and]

/-! ### Vectors -/

/-- Write the values of a list. -/
def writeAll : List A → Option (List UInt8)
  | [] => some []
  | a :: as => (c.write a).bind fun w => (writeAll as).map (w ++ ·)

/-- Read as many values. -/
def readMany : ℕ → List UInt8 → Option (List A × List UInt8)
  | 0, bytes => some ([], bytes)
  | n + 1, bytes => (c.read bytes).bind fun s => (readMany n s.2).map fun t => (s.1 :: t.1, t.2)

theorem readMany_eq_some {n : ℕ} {bytes : List UInt8} {as : List A} {rest : List UInt8} :
    c.readMany n bytes = some (as, rest) ↔ as.length = n ∧ ∃ w, c.writeAll as = some w ∧ bytes = w ++ rest := by
  induction n generalizing bytes as with
  | zero =>
    simp only [readMany, Option.some.injEq, Prod.mk.injEq, List.length_eq_zero_iff]
    constructor
    · rintro ⟨rfl, rfl⟩
      exact ⟨rfl, [], rfl, rfl⟩
    · rintro ⟨rfl, w, ⟨⟩, rfl⟩
      exact ⟨rfl, rfl⟩
  | succ n ih =>
    simp only [readMany, Option.bind_eq_some_iff, Option.map_eq_some_iff]
    constructor
    · rintro ⟨⟨a, rest'⟩, hread, ⟨as', rest''⟩, hmany, ⟨⟩⟩
      obtain ⟨w, hw, rfl⟩ := (c.read_eq_some _ _ _).mp hread
      obtain ⟨rfl, w', hw', hrest⟩ := ih.mp hmany
      refine ⟨rfl, w ++ w', ?_, ?_⟩
      · rw [writeAll, hw, hw']
        rfl
      · rw [List.append_assoc, ← hrest]
    · rintro ⟨hlength, w, hw, rfl⟩
      rcases as with _ | ⟨a, as⟩
      · cases hlength
      · simp only [writeAll, Option.bind_eq_some_iff, Option.map_eq_some_iff] at hw
        obtain ⟨w₁, hw₁, w₂, hw₂, rfl⟩ := hw
        refine ⟨(a, w₂ ++ rest), (c.read_eq_some _ _ _).mpr ⟨w₁, hw₁, List.append_assoc w₁ w₂ rest⟩, (as, rest), ?_, rfl⟩
        exact ih.mpr ⟨Nat.succ.inj hlength, w₂, hw₂, rfl⟩

@[simp] theorem isSome_writeAll (as : List A) : (c.writeAll as).isSome = as.all fun a => (c.write a).isSome := by
  induction as with
  | nil => rfl
  | cons a as ih =>
    rw [writeAll, List.all_cons, ← ih]
    cases c.write a <;> simp

/-- A number of some bytes, the least first; numbers that are too large cannot be written. -/
def nat (width : ℕ) : Wire ℕ :=
  (ofCodec (.uint width)).narrow (fun n => if h : n < 256 ^ width then some ⟨n, h⟩ else none) (fun k => some k.val)
    fun k n => by
      constructor
      · rintro ⟨⟩
        exact dif_pos k.isLt
      · intro h
        split at h
        · cases h
          rfl
        · cases h

@[simp] theorem isSome_write_nat (width n : ℕ) : ((nat width).write n).isSome = decide (n < 256 ^ width) := by
  unfold nat narrow
  by_cases h : n < 256 ^ width <;> simp [h]

/-- A byte. -/
def u8 : Wire UInt8 :=
  (ofCodec .byte).equiv ⟨UInt8.ofFin, UInt8.toFin, UInt8.toFin_ofFin, UInt8.ofFin_toFin⟩

/-- A word of 32 bits. -/
def u32 : Wire UInt32 :=
  (ofCodec (.uint 4)).equiv ⟨UInt32.ofFin, UInt32.toFin, UInt32.toFin_ofFin, UInt32.ofFin_toFin⟩

/-- A word of 64 bits. -/
def u64 : Wire UInt64 :=
  (ofCodec (.uint 8)).equiv ⟨UInt64.ofFin, UInt64.toFin, UInt64.toFin_ofFin, UInt64.ofFin_toFin⟩

/-- A word of 32 bits with a sign. -/
def i32 : Wire Int32 :=
  u32.equiv ⟨UInt32.toInt32, Int32.toUInt32, UInt32.toUInt32_toInt32, Int32.toInt32_toUInt32⟩

@[simp] theorem isSome_write_u8 (n : UInt8) : (u8.write n).isSome = true := rfl

@[simp] theorem isSome_write_u32 (n : UInt32) : (u32.write n).isSome = true := rfl

@[simp] theorem isSome_write_u64 (n : UInt64) : (u64.write n).isSome = true := rfl

@[simp] theorem isSome_write_i32 (n : Int32) : (i32.write n).isSome = true := rfl

/-- A list, after its length. -/
def vec (count : Wire ℕ) : Wire (List A) where
  write as := (count.write as.length).bind fun w => (c.writeAll as).map (w ++ ·)
  read bytes := (count.read bytes).bind fun s => c.readMany s.1 s.2
  read_eq_some bytes as rest := by
    simp only [Option.bind_eq_some_iff, Option.map_eq_some_iff, readMany_eq_some]
    constructor
    · rintro ⟨⟨_, rest'⟩, hcount, rfl, w', hw', hrest⟩
      obtain ⟨w, hw, rfl⟩ := (count.read_eq_some _ _ _).mp hcount
      refine ⟨w ++ w', ⟨w, hw, w', hw', rfl⟩, ?_⟩
      rw [List.append_assoc, ← hrest]
    · rintro ⟨_, ⟨w, hw, w', hw', rfl⟩, rfl⟩
      refine ⟨(as.length, w' ++ rest), ?_, rfl, w', hw', rfl⟩
      exact (count.read_eq_some _ _ _).mpr ⟨w, hw, List.append_assoc w w' rest⟩

@[simp] theorem isSome_write_vec (count : Wire ℕ) (as : List A) :
    ((c.vec count).write as).isSome = ((count.write as.length).isSome && as.all fun a => (c.write a).isSome) := by
  show ((count.write as.length).bind _).isSome = _
  rcases count.write as.length with _ | w
  · rfl
  · rw [Option.bind_some, Option.isSome_map, isSome_writeAll, Option.isSome_some, Bool.true_and]

/-! ### Enumerations with data -/

/-- A case of an enumeration. -/
structure Variant (M : Type u) where
  /-- Its data. -/
  Data : Type
  /-- How they are written. -/
  wire : Wire Data
  /-- The case with its data. -/
  make : Data → M
  /-- The data, if it is this case. -/
  un : M → Option Data
  /-- The two are inverse. -/
  un_eq_some : ∀ m x, un m = some x ↔ make x = m

/-- A case without data. -/
def nothing : Wire Unit := ofCodec .nil

/-- An enumeration with data: the number of the case, in a byte, and its data. -/
def enum {M : Type u} (cases : List (Variant M)) (tag : M → ℕ) (hlength : cases.length ≤ 256)
    (htag : ∀ m, cases.map (fun v => (v.un m).isSome) = (List.range cases.length).map fun i => decide (tag m = i)) :
    Wire M where
  write m := cases[tag m]?.bind fun v => (v.un m).bind fun x => (v.wire.write x).map (UInt8.ofNat (tag m) :: ·)
  read
    | [] => none
    | b :: bytes => cases[b.toNat]?.bind fun v => (v.wire.read bytes).map fun s => (v.make s.1, s.2)
  read_eq_some bytes m rest := by
    -- only the case with the right number holds the value
    have hcase : ∀ {i v x}, cases[i]? = some v → v.un m = some x → tag m = i := by
      intro i v x hi hx
      have hlt := (List.getElem?_eq_some_iff.mp hi).1
      have hsame := congrArg (fun l => l[i]?) (htag m)
      simp only [List.getElem?_map, hi, Option.map_some, hx, Option.isSome_some, List.getElem?_range hlt,
        Option.some.injEq] at hsame
      exact of_decide_eq_true hsame.symm
    have htoNat : ∀ {v}, cases[tag m]? = some v → (UInt8.ofNat (tag m)).toNat = tag m := by
      intro v hv
      have hlt := (List.getElem?_eq_some_iff.mp hv).1
      rw [UInt8.toNat_ofNat']
      exact Nat.mod_eq_of_lt (by omega)
    rcases bytes with _ | ⟨b, bytes⟩
    · simp only [reduceCtorEq, false_iff]
      rintro ⟨w, hw, hnil⟩
      obtain ⟨rfl, -⟩ := List.append_eq_nil_iff.mp hnil.symm
      simp only [Option.bind_eq_some_iff, Option.map_eq_some_iff] at hw
      obtain ⟨_, -, _, -, _, -, hcons⟩ := hw
      cases hcons
    · simp only [Option.bind_eq_some_iff, Option.map_eq_some_iff]
      constructor
      · rintro ⟨v, hv, ⟨x, rest'⟩, hread, ⟨⟩⟩
        obtain ⟨w, hw, rfl⟩ := (v.wire.read_eq_some _ _ _).mp hread
        have hun : v.un (v.make x) = some x := (v.un_eq_some _ _).mpr rfl
        have hb := hcase hv hun
        refine ⟨b :: w, ⟨v, hb ▸ hv, x, hun, w, hw, ?_⟩, rfl⟩
        rw [hb, UInt8.ofNat_toNat]
      · rintro ⟨_, ⟨v, hv, x, hun, w, hw, rfl⟩, hcons⟩
        rw [List.cons_append, List.cons.injEq] at hcons
        obtain ⟨rfl, rfl⟩ := hcons
        refine ⟨v, ?_, (x, rest), (v.wire.read_eq_some _ _ _).mpr ⟨w, hw, rfl⟩, ?_⟩
        · rw [htoNat hv]
          exact hv
        · rw [(v.un_eq_some m x).mp hun]

theorem isSome_write_enum {M : Type u} {cases : List (Variant M)} {tag : M → ℕ} {hlength : cases.length ≤ 256}
    {htag : ∀ m, cases.map (fun v => (v.un m).isSome) = (List.range cases.length).map fun i => decide (tag m = i)}
    {m : M} {v : Variant M} {x : v.Data} (hv : cases[tag m]? = some v) (hx : v.un m = some x) :
    ((enum cases tag hlength htag).write m).isSome = (v.wire.write x).isSome := by
  show (cases[tag m]?.bind _).isSome = _
  rw [hv, Option.bind_some, hx, Option.bind_some, Option.isSome_map]

end Wire

end Distgard.Lib
