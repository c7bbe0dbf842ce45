import Distgard.Lib.Wire

/-!
# The messages of the network

What clients and servers tell each other over the channels of a connection, and how it is written
as bytes. Positions and cells write themselves; the rest is derived: the number of the case, then
its fields in the order in which they are declared.

## The model

Floats are their bits. How borsh writes numbers, floats and vectors is a parameter (`Borsh`), of
which it is assumed that what is read is what was written (`Wire`), that a float that is no number
is not written, nor a vector whose length does not fit 32 bits, and that all else is (`Borsh.Lawful`).
`Borsh.littleEndian` is one that is so.

## What is proved

* `message_roundTrip` — the bytes that are read as a message are those that it is written as, and
  no others; and a message can be written exactly when its floats are numbers and its vectors are
  short enough.
-/

namespace Distgard.ServerTypes

open Lib

/-- A float of 32 bits. -/
structure F32 where
  /-- Its sign, its exponent and its fraction. -/
  bits : UInt32
  deriving DecidableEq, Repr

/-- It is no number: the exponent is the largest, and the fraction is not zero. -/
def F32.isNan (f : F32) : Bool := 0x7F800000 < f.bits &&& 0x7FFFFFFF

/-- A position, or a direction. -/
structure SerVec3 where
  /-- East. -/
  x : F32
  /-- Up. -/
  y : F32
  /-- South. -/
  z : F32
  deriving DecidableEq, Repr

/-- A cell. -/
structure SerIVec3 where
  /-- East. -/
  x : Int32
  /-- Up. -/
  y : Int32
  /-- South. -/
  z : Int32
  deriving DecidableEq

/-- A message. -/
inductive Message where
  /-- Nothing. -/
  | None
  /-- A client asks for the world. -/
  | RequestWorldInfo
  /-- The world: the database of the chests, the kind of planet, the database of the blocks, the seed. -/
  | WorldInfo (chestReg : List UInt8) (pt : UInt8) (udm : List UInt8) (seed : UInt32)
  /-- The time of day. -/
  | TimeUpdate (time : F32)
  /-- Where a player is, and looks. -/
  | PlayerUpdate (uuid : UInt64 × UInt64) (pos rot : SerVec3)
  /-- A block was set. -/
  | BlockSet (spot : SerIVec3) (block : UInt32)
  /-- Several blocks were set. -/
  | MultiBlockSet (blocks : List (SerIVec3 × UInt32))
  /-- The identity of the client. -/
  | YourId (id1 id2 : UInt64)
  /-- The identity of the client, by the client. -/
  | TellYouMyID (id1 id2 : UInt64)
  /-- A slot of a chest. -/
  | ChestUpdate (spot : SerIVec3) (slot : UInt64) (contents : UInt32 × UInt32)
  /-- A slot of the inventory. -/
  | InvUpdate (slot : UInt64) (contents : UInt32 × UInt32)
  /-- What the mouse holds. -/
  | ItemToYourMouse (contents : UInt32 × UInt32)
  /-- The client leaves. -/
  | Disconnect
  /-- A mob has moved. -/
  | MobUpdate
  /-- Mobs have moved. -/
  | MobUpdateBatch
  deriving DecidableEq

/-! ### How they are written -/

/-- How what messages are made of is written. -/
structure Borsh where
  /-- A byte. -/
  u8 : Wire UInt8
  /-- A word of 32 bits. -/
  u32 : Wire UInt32
  /-- A word of 64 bits. -/
  u64 : Wire UInt64
  /-- A word of 32 bits with a sign. -/
  i32 : Wire Int32
  /-- A float. -/
  f32 : Wire F32
  /-- A vector. -/
  vec {A : Type} : Wire A → Wire (List A)

/-- What can be written. -/
structure Borsh.Lawful (borsh : Borsh) : Prop where
  /-- Bytes can. -/
  isSome_write_u8 : ∀ n, (borsh.u8.write n).isSome = true
  /-- Words can. -/
  isSome_write_u32 : ∀ n, (borsh.u32.write n).isSome = true
  /-- Long words can. -/
  isSome_write_u64 : ∀ n, (borsh.u64.write n).isSome = true
  /-- Words with a sign can. -/
  isSome_write_i32 : ∀ n, (borsh.i32.write n).isSome = true
  /-- Floats can, if they are numbers. -/
  isSome_write_f32 : ∀ f, (borsh.f32.write f).isSome = !f.isNan
  /-- Vectors can, if they are not too long and their elements can. -/
  isSome_write_vec : ∀ {A : Type} (wire : Wire A) (as : List A),
    ((borsh.vec wire).write as).isSome = (decide (as.length < 2 ^ 32) && as.all fun a => (wire.write a).isSome)

/-- The three floats, one after the other. -/
def SerVec3.wire (borsh : Borsh) : Wire SerVec3 :=
  (borsh.f32.prod (borsh.f32.prod borsh.f32)).equiv
    ⟨fun v => ⟨v.1, v.2.1, v.2.2⟩, fun v => (v.x, v.y, v.z), fun _ => rfl, fun _ => rfl⟩

/-- The three numbers, one after the other. -/
def SerIVec3.wire (borsh : Borsh) : Wire SerIVec3 :=
  (borsh.i32.prod (borsh.i32.prod borsh.i32)).equiv
    ⟨fun v => ⟨v.1, v.2.1, v.2.2⟩, fun v => (v.x, v.y, v.z), fun _ => rfl, fun _ => rfl⟩

namespace Message

/-- A case without fields. -/
def unit (message : Message) : Wire.Variant Message where
  Data := Unit
  wire := .nothing
  make _ := message
  un m := if m = message then some () else none
  un_eq_some m x := by
    by_cases h : m = message
    · simp [h]
    · simp [h, Ne.symm h]

/-- The cases, in the order of their numbers. -/
def variants (borsh : Borsh) : List (Wire.Variant Message) :=
  [ unit .None,
    unit .RequestWorldInfo,
    { Data := List UInt8 × UInt8 × List UInt8 × UInt32
      wire := (borsh.vec borsh.u8).prod (borsh.u8.prod ((borsh.vec borsh.u8).prod borsh.u32))
      make := fun d => .WorldInfo d.1 d.2.1 d.2.2.1 d.2.2.2
      un := fun | .WorldInfo chestReg pt udm seed => some (chestReg, pt, udm, seed) | _ => none
      un_eq_some := fun m d => by cases m <;> simp [Prod.ext_iff, eq_comm] },
    { Data := F32
      wire := borsh.f32
      make := .TimeUpdate
      un := fun | .TimeUpdate time => some time | _ => none
      un_eq_some := fun m d => by cases m <;> simp [eq_comm] },
    { Data := (UInt64 × UInt64) × SerVec3 × SerVec3
      wire := (borsh.u64.prod borsh.u64).prod ((SerVec3.wire borsh).prod (SerVec3.wire borsh))
      make := fun d => .PlayerUpdate d.1 d.2.1 d.2.2
      un := fun | .PlayerUpdate uuid pos rot => some (uuid, pos, rot) | _ => none
      un_eq_some := fun m d => by cases m <;> simp [Prod.ext_iff, eq_comm] },
    { Data := SerIVec3 × UInt32
      wire := (SerIVec3.wire borsh).prod borsh.u32
      make := fun d => .BlockSet d.1 d.2
      un := fun | .BlockSet spot block => some (spot, block) | _ => none
      un_eq_some := fun m d => by cases m <;> simp [Prod.ext_iff, eq_comm] },
    { Data := List (SerIVec3 × UInt32)
      wire := borsh.vec ((SerIVec3.wire borsh).prod borsh.u32)
      make := .MultiBlockSet
      un := fun | .MultiBlockSet blocks => some blocks | _ => none
      un_eq_some := fun m d => by cases m <;> simp [eq_comm] },
    { Data := UInt64 × UInt64
      wire := borsh.u64.prod borsh.u64
      make := fun d => .YourId d.1 d.2
      un := fun | .YourId id1 id2 => some (id1, id2) | _ => none
      un_eq_some := fun m d => by cases m <;> simp [Prod.ext_iff, eq_comm] },
    { Data := UInt64 × UInt64
      wire := borsh.u64.prod borsh.u64
      make := fun d => .TellYouMyID d.1 d.2
      un := fun | .TellYouMyID id1 id2 => some (id1, id2) | _ => none
      un_eq_some := fun m d => by cases m <;> simp [Prod.ext_iff, eq_comm] },
    { Data := SerIVec3 × UInt64 × UInt32 × UInt32
      wire := (SerIVec3.wire borsh).prod (borsh.u64.prod (borsh.u32.prod borsh.u32))
      make := fun d => .ChestUpdate d.1 d.2.1 d.2.2
      un := fun | .ChestUpdate spot slot contents => some (spot, slot, contents) | _ => none
      un_eq_some := fun m d => by cases m <;> simp [Prod.ext_iff, eq_comm] },
    { Data := UInt64 × UInt32 × UInt32
      wire := borsh.u64.prod (borsh.u32.prod borsh.u32)
      make := fun d => .InvUpdate d.1 d.2
      un := fun | .InvUpdate slot contents => some (slot, contents) | _ => none
      un_eq_some := fun m d => by cases m <;> simp [Prod.ext_iff, eq_comm] },
    { Data := UInt32 × UInt32
      wire := borsh.u32.prod borsh.u32
      make := .ItemToYourMouse
      un := fun | .ItemToYourMouse contents => some contents | _ => none
      un_eq_some := fun m d => by cases m <;> simp [eq_comm] },
    unit .Disconnect,
    unit .MobUpdate,
    unit .MobUpdateBatch ]

/-- The number of the case. -/
def tag : Message → ℕ
  | None => 0
  | RequestWorldInfo => 1
  | WorldInfo .. => 2
  | TimeUpdate .. => 3
  | PlayerUpdate .. => 4
  | BlockSet .. => 5
  | MultiBlockSet .. => 6
  | YourId .. => 7
  | TellYouMyID .. => 8
  | ChestUpdate .. => 9
  | InvUpdate .. => 10
  | ItemToYourMouse .. => 11
  | Disconnect => 12
  | MobUpdate => 13
  | MobUpdateBatch => 14

theorem length_variants (borsh : Borsh) : (variants borsh).length = 15 := rfl

theorem variants_tag (borsh : Borsh) (m : Message) : (variants borsh).map (fun v => (v.un m).isSome) =
    (List.range (variants borsh).length).map fun i => decide (m.tag = i) := by
  cases m <;> rfl

/-- How a message is written. -/
def wire (borsh : Borsh) : Wire Message :=
  .enum (variants borsh) tag (by rw [length_variants]; decide) (variants_tag borsh)

/-- Write a message. -/
def toVec (borsh : Borsh) (m : Message) : Option (List UInt8) := (wire borsh).write m

/-- Read a message that takes up all of the bytes. -/
def fromSlice (borsh : Borsh) (bytes : List UInt8) : Option Message := (wire borsh).fromSlice bytes

/-- The floats of a message are numbers, and its vectors are not too long. -/
def Plain : Message → Bool
  | WorldInfo chestReg _ udm _ => chestReg.length < 2 ^ 32 && udm.length < 2 ^ 32
  | TimeUpdate time => !time.isNan
  | PlayerUpdate _ pos rot => [pos.x, pos.y, pos.z, rot.x, rot.y, rot.z].all fun f => !f.isNan
  | MultiBlockSet blocks => blocks.length < 2 ^ 32
  | _ => true

/-- Every case is written with its number before it. -/
theorem isSome_toVec {borsh : Borsh} {m : Message} {v : Wire.Variant Message} {x : v.Data}
    (hv : (variants borsh)[m.tag]? = some v) (hx : v.un m = some x) :
    (m.toVec borsh).isSome = (v.wire.write x).isSome :=
  Wire.isSome_write_enum hv hx

end Message

section

variable {borsh : Borsh} (h : borsh.Lawful)

include h

/-- Which positions can be written. -/
theorem Borsh.Lawful.isSome_write_serVec3 (v : SerVec3) :
    ((SerVec3.wire borsh).write v).isSome = (!v.x.isNan && (!v.y.isNan && !v.z.isNan)) := by
  rw [SerVec3.wire, Wire.write_equiv]
  simp [h.isSome_write_f32]

/-- All cells can be written. -/
theorem Borsh.Lawful.isSome_write_serIVec3 (v : SerIVec3) : ((SerIVec3.wire borsh).write v).isSome = true := by
  rw [SerIVec3.wire, Wire.write_equiv]
  simp [h.isSome_write_i32]

/-- Which messages can be written. -/
theorem Message.isSome_toVec_iff (m : Message) : (m.toVec borsh).isSome = m.Plain := by
  have hall : ∀ l : List UInt8, (l.all fun _ => true) = true := fun l => List.all_eq_true.mpr fun _ _ => rfl
  cases m with
  | WorldInfo chestReg pt udm seed =>
    rw [isSome_toVec (x := (chestReg, pt, udm, seed)) rfl rfl]
    simp [Plain, hall, h.isSome_write_vec, h.isSome_write_u8, h.isSome_write_u32]
  | TimeUpdate time =>
    rw [isSome_toVec rfl rfl]
    simp [Plain, h.isSome_write_f32]
  | PlayerUpdate uuid pos rot =>
    rw [isSome_toVec (x := (uuid, pos, rot)) rfl rfl]
    simp [Plain, Bool.and_assoc, h.isSome_write_serVec3, h.isSome_write_u64]
  | MultiBlockSet blocks =>
    rw [isSome_toVec rfl rfl]
    simp [Plain, h.isSome_write_vec, h.isSome_write_serIVec3, h.isSome_write_u32]
  | BlockSet spot block =>
    rw [isSome_toVec (x := (spot, block)) rfl rfl]
    simp [Plain, h.isSome_write_serIVec3, h.isSome_write_u32]
  | YourId id1 id2 =>
    rw [isSome_toVec (x := (id1, id2)) rfl rfl]
    simp [Plain, h.isSome_write_u64]
  | TellYouMyID id1 id2 =>
    rw [isSome_toVec (x := (id1, id2)) rfl rfl]
    simp [Plain, h.isSome_write_u64]
  | ChestUpdate spot slot contents =>
    rw [isSome_toVec (x := (spot, slot, contents)) rfl rfl]
    simp [Plain, h.isSome_write_serIVec3, h.isSome_write_u64, h.isSome_write_u32]
  | InvUpdate slot contents =>
    rw [isSome_toVec (x := (slot, contents)) rfl rfl]
    simp [Plain, h.isSome_write_u64, h.isSome_write_u32]
  | ItemToYourMouse contents =>
    rw [isSome_toVec rfl rfl]
    simp [Plain, h.isSome_write_u32]
  | _ => rfl

/-- **Messages and their bytes**: the bytes that are read as a message are those that it is written
as. It can be written exactly when its floats are numbers and its vectors are not too long. -/
theorem message_roundTrip (m : Message) :
    (∀ bytes, Message.fromSlice borsh bytes = some m ↔ m.toVec borsh = some bytes) ∧
      ((m.toVec borsh).isSome = true ↔ m.Plain = true) :=
  ⟨fun _ => (Message.wire borsh).fromSlice_eq_some, by rw [Message.isSome_toVec_iff h]⟩

end

/-! ### Numbers with the least byte first -/

/-- Numbers are written with the least byte first, and before a vector its length in 32 bits. -/
def Borsh.littleEndian : Borsh where
  u8 := .u8
  u32 := .u32
  u64 := .u64
  i32 := .i32
  f32 := (Wire.u32.equiv ⟨F32.mk, F32.bits, fun _ => rfl, fun _ => rfl⟩).only fun f => !f.isNan
  vec wire := wire.vec (.nat 4)

theorem Borsh.littleEndian_lawful : Borsh.littleEndian.Lawful where
  isSome_write_u8 := Wire.isSome_write_u8
  isSome_write_u32 := Wire.isSome_write_u32
  isSome_write_u64 := Wire.isSome_write_u64
  isSome_write_i32 := Wire.isSome_write_i32
  isSome_write_f32 f := by
    rw [littleEndian, Wire.isSome_write_only, Wire.write_equiv, Wire.isSome_write_u32, Bool.and_true]
  isSome_write_vec wire as := by
    rw [littleEndian, Wire.isSome_write_vec, Wire.isSome_write_nat]
    rfl

/-- A block is set: the number of the case, the cell, and the block. -/
theorem message_roundTrip_blockSet :
    Message.fromSlice .littleEndian [5, 1, 0, 0, 0, 255, 255, 255, 255, 0, 1, 0, 0, 7, 0, 0, 0] =
      some (.BlockSet ⟨1, -1, 256⟩ 7) :=
  ((message_roundTrip Borsh.littleEndian_lawful (.BlockSet ⟨1, -1, 256⟩ 7)).1 _).mpr (by decide)

end Distgard.ServerTypes
