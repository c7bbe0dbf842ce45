import Mathlib.Algebra.GroupWithZero.Nat
import Mathlib.Data.List.Nodup
import Mathlib.Logic.Equiv.Fin.Basic

/-!
# Encodings of a fixed size

A way to write values as bytes, all as many, such that nothing but what was written can be
read. Bytes, words with the least byte first, and enumerations are written so; and, one after
the other, pairs and vectors.

A stream of such encodings says where it is to be cut: chunks of the right size that make up
the stream are its encodings (`eq_map_serialize`), and from chunks of other sizes fewer values
can be read than the stream has (`length_eq_size`).
-/

namespace Distgard.Lib

universe u v

/-- A way to write values as bytes. -/
structure Codec (A : Type u) where
  /-- How many bytes there are. -/
  size : ℕ
  /-- Write a value. -/
  serialize : A → List UInt8
  /-- Read a value. -/
  deserialize : List UInt8 → Option A
  /-- All values are written with as many bytes. -/
  length_serialize : ∀ a, (serialize a).length = size
  /-- What is read is what was written. -/
  deserialize_eq_some : ∀ bytes a, deserialize bytes = some a ↔ serialize a = bytes

namespace Codec

variable {A : Type u} {B : Type v} (c : Codec A)

attribute [simp] length_serialize

@[simp] theorem deserialize_serialize (a : A) : c.deserialize (c.serialize a) = some a :=
  (c.deserialize_eq_some _ _).mpr rfl

theorem serialize_injective : Function.Injective c.serialize := by
  intro a a' h
  have hread : some a = some a' := by rw [← c.deserialize_serialize a, h, c.deserialize_serialize]
  exact Option.some.inj hread

theorem length_of_deserialize {bytes : List UInt8} {a : A} (h : c.deserialize bytes = some a) :
    bytes.length = c.size := by
  rw [← (c.deserialize_eq_some _ _).mp h, c.length_serialize]

theorem deserialize_eq_none {bytes : List UInt8} (h : bytes.length ≠ c.size) : c.deserialize bytes = none := by
  rcases hread : c.deserialize bytes with _ | a
  · rfl
  · exact absurd (c.length_of_deserialize hread) h

theorem size_pos [Nontrivial A] : 0 < c.size := by
  obtain ⟨a, a', hne⟩ := exists_pair_ne A
  by_contra h
  have hempty : ∀ b, c.serialize b = [] := fun b => List.length_eq_zero_iff.mp (by rw [c.length_serialize]; omega)
  exact hne (c.serialize_injective ((hempty a).trans (hempty a').symm))

/-! ### Streams -/

theorem length_flatMap_serialize (as : List A) : (as.flatMap c.serialize).length = as.length * c.size := by
  induction as with
  | nil => simp
  | cons a as ih =>
    rw [List.flatMap_cons, List.length_append, c.length_serialize, ih, List.length_cons, Nat.add_mul]
    omega

theorem filterMap_map_serialize (as : List A) : (as.map c.serialize).filterMap c.deserialize = as := by
  induction as with
  | nil => rfl
  | cons a as ih => rw [List.map_cons, List.filterMap_cons_some (c.deserialize_serialize a), ih]

/-- Chunks of the right size that make up a stream are its encodings. -/
theorem eq_map_serialize (hpos : 0 < c.size) {chunks : List (List UInt8)} {as : List A}
    (hsize : ∀ chunk ∈ chunks, chunk.length = c.size) (hflatten : chunks.flatten = as.flatMap c.serialize) :
    chunks = as.map c.serialize := by
  induction chunks generalizing as with
  | nil =>
    rcases as with _ | ⟨a, as⟩
    · rfl
    · have hlength := congrArg List.length hflatten
      rw [List.flatMap_cons, List.length_append, c.length_serialize] at hlength
      simp only [List.flatten_nil, List.length_nil] at hlength
      omega
  | cons chunk chunks ih =>
    obtain ⟨hchunk, hchunks⟩ := List.forall_mem_cons.mp hsize
    rcases as with _ | ⟨a, as⟩
    · have hlength := congrArg List.length hflatten
      rw [List.flatten_cons, List.length_append, hchunk] at hlength
      simp only [List.flatMap_nil, List.length_nil] at hlength
      omega
    · rw [List.flatten_cons, List.flatMap_cons] at hflatten
      obtain ⟨rfl, hrest⟩ := List.append_inj hflatten (by rw [hchunk, c.length_serialize])
      rw [List.map_cons, ← ih hchunks hrest]

/-- No more is read from chunks than there are bytes for. -/
theorem length_filterMap_le (chunks : List (List UInt8)) :
    (chunks.filterMap c.deserialize).length * c.size ≤ chunks.flatten.length := by
  induction chunks with
  | nil => simp
  | cons chunk chunks ih =>
    rw [List.flatten_cons, List.length_append]
    rcases hread : c.deserialize chunk with _ | a
    · rw [List.filterMap_cons_none hread]
      omega
    · rw [List.filterMap_cons_some hread, List.length_cons, Nat.add_mul, c.length_of_deserialize hread]
      omega

/-- If as much is read from chunks as there are bytes for, each of them has the right size, or
no bytes at all. -/
theorem length_eq_size {chunks : List (List UInt8)}
    (hread : chunks.flatten.length ≤ (chunks.filterMap c.deserialize).length * c.size) :
    ∀ chunk ∈ chunks, chunk ≠ [] → chunk.length = c.size := by
  induction chunks with
  | nil => exact fun chunk h => absurd h List.not_mem_nil
  | cons chunk chunks ih =>
    have hle := c.length_filterMap_le chunks
    rw [List.flatten_cons, List.length_append] at hread
    rw [List.forall_mem_cons]
    rcases hchunk : c.deserialize chunk with _ | a
    · rw [List.filterMap_cons_none hchunk] at hread
      exact ⟨fun hne => absurd (List.length_pos_iff.mpr hne) (by omega), ih (by omega)⟩
    · rw [List.filterMap_cons_some hchunk, List.length_cons, Nat.add_mul] at hread
      have hlength := c.length_of_deserialize hchunk
      exact ⟨fun _ => hlength, ih (by omega)⟩

/-! ### Ways to make encodings -/

/-- A type with one value is written with no bytes. -/
def nil [Unique A] : Codec A where
  size := 0
  serialize _ := []
  deserialize bytes := if bytes = [] then some default else none
  length_serialize _ := rfl
  deserialize_eq_some bytes a := by
    rw [Unique.eq_default a]
    simp [eq_comm]

/-- A byte. -/
def byte : Codec (Fin 256) where
  size := 1
  serialize n := [UInt8.ofFin n]
  deserialize
    | [b] => some b.toFin
    | _ => none
  length_serialize _ := rfl
  deserialize_eq_some bytes n := by
    rcases bytes with _ | ⟨b, _ | ⟨b', bytes⟩⟩
    · simp
    · simp only [Option.some.injEq, List.cons.injEq, and_true]
      exact ⟨fun h => h ▸ UInt8.ofFin_toFin b, fun h => h ▸ UInt8.toFin_ofFin n⟩
    · simp

/-- The values that are those of another type in another form; not all of that type need be. -/
def narrow (f : B → A) (g : A → Option B) (h : ∀ a b, g a = some b ↔ f b = a) : Codec B where
  size := c.size
  serialize b := c.serialize (f b)
  deserialize bytes := (c.deserialize bytes).bind g
  length_serialize b := c.length_serialize (f b)
  deserialize_eq_some bytes b := by
    simp only [Option.bind_eq_some_iff, c.deserialize_eq_some, h]
    constructor
    · rintro ⟨a, ha, rfl⟩
      exact ha
    · exact fun hb => ⟨f b, hb, rfl⟩

/-- The same values in another form. -/
def equiv (e : A ≃ B) : Codec B :=
  c.narrow e.symm (fun a => some (e a)) fun a b => by
    rw [Option.some.injEq, Equiv.symm_apply_eq]
    exact eq_comm

/-- One after the other. -/
def prod (d : Codec B) : Codec (A × B) where
  size := c.size + d.size
  serialize p := c.serialize p.1 ++ d.serialize p.2
  deserialize bytes := (c.deserialize (bytes.take c.size)).bind fun a =>
    (d.deserialize (bytes.drop c.size)).map fun b => (a, b)
  length_serialize p := by rw [List.length_append, c.length_serialize, d.length_serialize]
  deserialize_eq_some bytes p := by
    obtain ⟨a, b⟩ := p
    simp only [Option.bind_eq_some_iff, Option.map_eq_some_iff, c.deserialize_eq_some, d.deserialize_eq_some]
    constructor
    · rintro ⟨_, ha, _, hb, ⟨⟩⟩
      rw [ha, hb, List.take_append_drop]
    · rintro rfl
      refine ⟨a, ?_, b, ?_, rfl⟩
      · rw [List.take_left' (c.length_serialize a)]
      · rw [List.drop_left' (c.length_serialize a)]

/-- As many as a vector has. -/
def vector : (n : ℕ) → Codec (Fin n → A)
  | 0 => nil
  | n + 1 => (c.prod (vector n)).equiv (Fin.consEquiv fun _ => A)

/-- A number of some bytes, the least first. -/
def uint : (width : ℕ) → Codec (Fin (256 ^ width))
  | 0 => nil.equiv (Equiv.refl (Fin 1))
  | width + 1 => (byte.prod (uint width)).equiv ((Equiv.prodComm _ _).trans finProdFinEquiv)

/-- An enumeration, by the place in a list of all its values. -/
def enum [DecidableEq B] {n : ℕ} (base : Codec (Fin n)) (all : List B) (hall : ∀ b, b ∈ all) (hnodup : all.Nodup)
    (hlength : all.length ≤ n) : Codec B :=
  base.narrow (fun b => ⟨all.idxOf b, (List.idxOf_lt_length_of_mem (hall b)).trans_le hlength⟩)
    (fun k => all[k.val]?) fun k b => by
      constructor
      · intro hb
        obtain ⟨hk, rfl⟩ := List.getElem?_eq_some_iff.mp hb
        exact Fin.ext (hnodup.idxOf_getElem _ hk)
      · rintro rfl
        exact List.getElem?_idxOf (hall b)

end Codec

end Distgard.Lib
