import Distgard.Lib.Codec
import Distgard.Server

/-!
# How messages are read

A client writes its messages one after the other, each as `PACKET_SIZE` bytes, and the server
has a buffer of as many. In each turn of its loop, the thread of the client reads into the
buffer once, and tries to make a message of what it has got. A read returns some bytes of those
that have arrived, at most as many as there is room for, and they need not be those of a message.
What is no message is reported as erroneous, and is lost. The greeting of a client is read by
`read_exact` instead, which fills the buffer.

## The model

A turn is given what `read` returns, and what the handler of the message finds: the memory that
the threads share, and whether files and streams work. `bincode` stands for any way to write
messages as bytes. `Packet.codec` is the one that the source has: all fields in their order,
the least byte of a word first. What is passed on to other clients is left out.

## What is proved

* `handleClient_exact_iff` — the messages of the client are all handled, each once and in order,
  if and only if each read returned as many bytes as a message has, and no message but the last
  one ends the thread.
* `handleClient_losesBlock` — a message that comes in two pieces is not handled.
-/

namespace Distgard

open Lib

/-- How many mobs one message tells of. -/
def MOB_BATCH_SIZE : ℕ := 16

/-- What a message tells of a mob. Numbers with a point are given by their bits. -/
structure MobMessage where
  /-- The kind of message. -/
  messageType : MessageType
  /-- East. -/
  x : UInt32
  /-- Up. -/
  y : UInt32
  /-- South. -/
  z : UInt32
  /-- A rotation. -/
  rot : UInt32
  /-- A block, or a slot. -/
  info : UInt32
  /-- A second block, or the kind of slot. -/
  info2 : UInt32
  /-- How many are put into a slot. -/
  infof : UInt32
  /-- The client it comes from. -/
  goose : Uuid
  /-- A second cell. -/
  otherpos : UInt32 × UInt32 × UInt32
  /-- Whether the server moves what was in the slot to the mouse. -/
  bo : Bool
  /-- Whether the mob is hostile. -/
  hostile : Bool

/-- A message, whole. -/
structure Packet extends MobMessage where
  /-- How many mobs it tells of. -/
  count : UInt8
  /-- What it tells of them. -/
  msgs : Fin MOB_BATCH_SIZE → MobMessage

/-- What is told of no mob. -/
def MobMessage.EMPTY : MobMessage := ⟨.None, 0, 0, 0, 0, 0, 0, 0, (0, 0), (0, 0, 0), false, false⟩

namespace Packet

/-- A message about a place, of a client that names itself `goose`. -/
def new (goose : Uuid) (t : MessageType) (pos : UInt32 × UInt32 × UInt32) (rot info : UInt32) : Packet where
  messageType := t
  x := pos.1
  y := pos.2.1
  z := pos.2.2
  rot := rot
  info := info
  info2 := 0
  infof := 0x3F800000
  goose := goose
  otherpos := (0, 0, 0)
  bo := false
  hostile := false
  count := 0
  msgs _ := .EMPTY

/-- The same message, from the client whose thread has read it. -/
def sentBy (clientId : Uuid) (packet : Packet) : Packet := { packet with goose := clientId }

/-- What the handlers see of a message. -/
def toMessage (packet : Packet) : Message where
  messageType := packet.messageType
  x := .ofBits packet.x
  y := .ofBits packet.y
  z := .ofBits packet.z
  rot := .ofBits packet.rot
  info := packet.info
  info2 := packet.info2
  infof := .ofBits packet.infof
  goose := packet.goose
  otherpos := ⟨packet.otherpos.1.toInt32.toInt, packet.otherpos.2.1.toInt32.toInt, packet.otherpos.2.2.toInt32.toInt⟩
  bo := packet.bo

instance : Nontrivial Packet :=
  ⟨.new (0, 0) .None (0, 0, 0) 0 0, .new (0, 0) .None (0, 0, 0) 0 1, fun h => absurd (congrArg (·.info) h) (by decide)⟩

end Packet

/-! ### What the source writes -/

/-- All kinds of messages, in the order in which they are numbered. -/
def MessageType.all : List MessageType :=
  [.None, .RequestUdm, .RequestSeed, .RequestPt, .Pt, .Udm, .Seed, .PlayerUpdate, .BlockSet, .RequestTakeoff, .YourId,
    .MobUpdate, .NewMob, .WhatsThatMob, .ShutUpMobMsgs, .MobUpdateBatch, .TimeUpdate, .TellYouMyID, .MultiBlockSet,
    .ChestReg, .ReqChestReg, .ChestInvUpdate, .Disconnect]

theorem MessageType.mem_all (t : MessageType) : t ∈ MessageType.all := by
  cases t <;> simp [all]

theorem MessageType.nodup_all : MessageType.all.Nodup := by
  simp [all]

theorem MessageType.length_all : MessageType.all.length ≤ 256 ^ 4 := by
  simp [all]

/-- A byte. -/
def u8Codec : Codec UInt8 := (Codec.uint 1).equiv ⟨UInt8.ofFin, UInt8.toFin, fun _ => rfl, fun _ => rfl⟩

/-- A word. -/
def u32Codec : Codec UInt32 := (Codec.uint 4).equiv ⟨UInt32.ofFin, UInt32.toFin, fun _ => rfl, fun _ => rfl⟩

/-- A long word. -/
def u64Codec : Codec UInt64 := (Codec.uint 8).equiv ⟨UInt64.ofFin, UInt64.toFin, fun _ => rfl, fun _ => rfl⟩

/-- A truth value, as a byte that is `0` or `1`. -/
def boolCodec : Codec Bool := (Codec.uint 1).enum [false, true] (by simp) (by simp) (by simp)

/-- The kind of a message, as a word. -/
def MessageType.codec : Codec MessageType :=
  (Codec.uint 4).enum MessageType.all MessageType.mem_all MessageType.nodup_all MessageType.length_all

/-- What is told of a mob. -/
def MobMessage.codec : Codec MobMessage :=
  (MessageType.codec.prod <| u32Codec.prod <| u32Codec.prod <| u32Codec.prod <| u32Codec.prod <| u32Codec.prod <|
    u32Codec.prod <| u32Codec.prod <| (u64Codec.prod u64Codec).prod <| (u32Codec.prod (u32Codec.prod u32Codec)).prod <|
    boolCodec.prod boolCodec).equiv
  { toFun := fun (t, x, y, z, rot, info, info2, infof, goose, otherpos, bo, hostile) =>
      ⟨t, x, y, z, rot, info, info2, infof, goose, otherpos, bo, hostile⟩
    invFun := fun m => (m.messageType, m.x, m.y, m.z, m.rot, m.info, m.info2, m.infof, m.goose, m.otherpos, m.bo, m.hostile)
    left_inv := fun _ => rfl
    right_inv := fun _ => rfl }

/-- A message. -/
def Packet.codec : Codec Packet :=
  (MobMessage.codec.prod <| u8Codec.prod <| MobMessage.codec.vector MOB_BATCH_SIZE).equiv
  { toFun := fun (m, count, msgs) => ⟨m, count, msgs⟩
    invFun := fun packet => (packet.toMobMessage, packet.count, packet.msgs)
    left_inv := fun _ => rfl
    right_inv := fun _ => rfl }

example : Packet.codec.size = 1055 := by decide

/-! ### The loop -/

namespace Framing

/-- What `read` returns. -/
inductive ReadResult where
  /-- Some bytes; none if the stream is at its end. -/
  | ok (bytes : List UInt8)
  /-- No byte has arrived. -/
  | wouldBlock
  /-- Another error. -/
  | failed

/-- What a turn of the loop finds. -/
structure Turn where
  /-- What `read` returns; nothing is read while the client is not among the clients. -/
  read : Option ReadResult
  /-- The memory, when a message is handled. -/
  server : Server
  /-- Whether the files and the stream do what the handler relies on. -/
  works : Bool

namespace Turn

/-- The bytes that are read. -/
def bytes (turn : Turn) : List UInt8 :=
  match turn.read with
  | some (.ok bytes) => bytes
  | _ => []

/-- Whether there is a piece of at least one byte and at most `size`, or nothing has arrived. -/
def Brings (size : ℕ) (turn : Turn) : Prop :=
  turn.read = none ∨ turn.read = some .wouldBlock ∨
    ∃ bytes, turn.read = some (.ok bytes) ∧ 0 < bytes.length ∧ bytes.length ≤ size

/-- Whether the handler of a message comes to its end. -/
def handles (clientId : Uuid) (message : Message) (turn : Turn) : Bool :=
  match message.messageType with
  | .RequestUdm | .ReqChestReg | .RequestSeed | .RequestTakeoff => turn.works
  | _ =>
    match handleMessage clientId message with
    | some (_, actions) => (actions.foldlM (fun s action => Server.act action s) turn.server).isSome
    | none => true

/-- Whether the loop goes on after a message. -/
def goesOn (clientId : Uuid) (packet : Packet) (turn : Turn) : Bool :=
  packet.messageType ≠ .Disconnect && turn.handles clientId packet.toMessage

end Turn

section Loop

variable (bincode : Codec Packet) (clientId : Uuid)

/-- What has been read, and whether the loop is to end. Where there is no message, the source
makes one of the kind `None`, which no handler does anything for. -/
def receive : Option ReadResult → Option Packet × Bool
  | some (.ok bytes) =>
    if 0 < bytes.length then ((bincode.deserialize bytes).map (Packet.sentBy clientId), false) else (none, true)
  | some .wouldBlock => (none, false)
  | some .failed => (none, true)
  | none => (none, false)

/-- The messages that are handled, where the turns of the loop find `turns`. -/
def handleClient : List Turn → List Packet
  | [] => []
  | turn :: turns =>
    match receive bincode clientId turn.read with
    | (some packet, _) => packet :: if turn.goesOn clientId packet then handleClient turns else []
    | (none, shouldBreak) => if shouldBreak then [] else handleClient turns

/-- A client sends `sent`, and what it writes arrives in pieces. -/
structure Delivers (sent : List Packet) (turns : List Turn) : Prop where
  /-- The pieces make up what is written. -/
  stream : turns.flatMap Turn.bytes = sent.flatMap bincode.serialize
  /-- A read returns one of them, or nothing. -/
  brings : ∀ turn ∈ turns, turn.Brings bincode.size

/-- Every piece is as long as a message. -/
def Whole (turns : List Turn) : Prop := ∀ turn ∈ turns, turn.bytes ≠ [] → turn.bytes.length = bincode.size

/-- No message ends the thread while there is more to read. -/
def GoesOn (turns : List Turn) : Prop :=
  turns.Pairwise fun turn later => ∀ packet, turn.bytes = bincode.serialize packet → later.bytes ≠ [] →
    turn.goesOn clientId (packet.sentBy clientId)

/-- The messages that the pieces make. -/
def messages (turns : List Turn) : List Packet := (turns.map Turn.bytes).filterMap bincode.deserialize

variable {bincode clientId} {turn : Turn} {turns : List Turn}

theorem deserialize_nil : bincode.deserialize [] = none :=
  bincode.deserialize_eq_none bincode.size_pos.ne

/-- A message is made of the bytes that are read. -/
theorem receive_eq (h : turn.Brings bincode.size) :
    receive bincode clientId turn.read = ((bincode.deserialize turn.bytes).map (Packet.sentBy clientId), false) := by
  rcases h with h | h | ⟨bytes, h, hpos, -⟩
  · simp [receive, Turn.bytes, h, deserialize_nil]
  · simp [receive, Turn.bytes, h, deserialize_nil]
  · simp [receive, Turn.bytes, h, hpos]

theorem handleClient_of_none (h : turn.Brings bincode.size) (hread : bincode.deserialize turn.bytes = none) :
    handleClient bincode clientId (turn :: turns) = handleClient bincode clientId turns := by
  simp [handleClient, receive_eq h, hread]

theorem handleClient_of_some (h : turn.Brings bincode.size) {packet : Packet}
    (hread : bincode.deserialize turn.bytes = some packet) :
    handleClient bincode clientId (turn :: turns) = packet.sentBy clientId ::
      if turn.goesOn clientId (packet.sentBy clientId) then handleClient bincode clientId turns else [] := by
  simp [handleClient, receive_eq h, hread]

theorem messages_of_none (hread : bincode.deserialize turn.bytes = none) :
    messages bincode (turn :: turns) = messages bincode turns := by
  rw [messages, List.map_cons, List.filterMap_cons_none hread, messages]

theorem messages_of_some {packet : Packet} (hread : bincode.deserialize turn.bytes = some packet) :
    messages bincode (turn :: turns) = packet :: messages bincode turns := by
  rw [messages, List.map_cons, List.filterMap_cons_some hread, messages]

/-- No message is made of no bytes. -/
theorem filterMap_pieces (pieces : List (List UInt8)) :
    (pieces.filter (· ≠ [])).filterMap bincode.deserialize = pieces.filterMap bincode.deserialize := by
  induction pieces with
  | nil => rfl
  | cons piece pieces ih =>
    by_cases h : piece = []
    · rw [List.filter_cons_of_neg (by simpa using h), ih, h, List.filterMap_cons_none deserialize_nil]
    · rw [List.filter_cons_of_pos (by simpa using h), List.filterMap_cons, List.filterMap_cons, ih]

/-- The thread handles the first of the messages that the pieces make. -/
theorem handleClient_prefix (h : ∀ turn ∈ turns, turn.Brings bincode.size) :
    handleClient bincode clientId turns <+: (messages bincode turns).map (Packet.sentBy clientId) := by
  induction turns with
  | nil => exact List.nil_prefix
  | cons turn turns ih =>
    obtain ⟨hturn, hturns⟩ := List.forall_mem_cons.mp h
    rcases hread : bincode.deserialize turn.bytes with _ | packet
    · rw [handleClient_of_none hturn hread, messages_of_none hread]
      exact ih hturns
    · rw [handleClient_of_some hturn hread, messages_of_some hread, List.map_cons, List.prefix_cons_inj]
      split
      · exact ih hturns
      · exact List.nil_prefix

/-- All pieces are messages. -/
def Aligned (bincode : Codec Packet) (turns : List Turn) : Prop :=
  ∀ turn ∈ turns, turn.bytes ≠ [] → ∃ packet, bincode.deserialize turn.bytes = some packet

theorem Aligned.messages_eq_nil (h : Aligned bincode turns) :
    messages bincode turns = [] ↔ ∀ turn ∈ turns, turn.bytes = [] := by
  rw [messages, List.filterMap_eq_nil_iff, List.forall_mem_map]
  constructor
  · intro hnone turn hturn
    by_contra hne
    obtain ⟨packet, hread⟩ := h turn hturn hne
    cases (hnone turn hturn).symm.trans hread
  · intro hnil turn hturn
    rw [hnil turn hturn, deserialize_nil]

/-- All messages are handled if none ends the thread before the last one is read. -/
theorem Aligned.handleClient_eq_iff (halign : Aligned bincode turns) (h : ∀ turn ∈ turns, turn.Brings bincode.size) :
    handleClient bincode clientId turns = (messages bincode turns).map (Packet.sentBy clientId) ↔
      GoesOn bincode clientId turns := by
  induction turns with
  | nil => simp [handleClient, messages, GoesOn]
  | cons turn turns ih =>
    obtain ⟨hturn, hturns⟩ := List.forall_mem_cons.mp h
    have haligns : Aligned bincode turns := (List.forall_mem_cons.mp halign).2
    have ih := ih haligns hturns
    have hcons : GoesOn bincode clientId (turn :: turns) ↔
        (∀ later ∈ turns, ∀ packet, turn.bytes = bincode.serialize packet → later.bytes ≠ [] →
          turn.goesOn clientId (packet.sentBy clientId)) ∧ GoesOn bincode clientId turns := List.pairwise_cons
    rw [hcons]
    rcases hread : bincode.deserialize turn.bytes with _ | packet
    · rw [handleClient_of_none hturn hread, messages_of_none hread, ih]
      refine ⟨fun hgoes => ⟨fun later _ packet hpacket => ?_, hgoes⟩, And.right⟩
      rw [hpacket, bincode.deserialize_serialize] at hread
      cases hread
    · have hpacket := (bincode.deserialize_eq_some _ _).mp hread
      rw [handleClient_of_some hturn hread, messages_of_some hread, List.map_cons, List.cons.injEq]
      simp only [true_and]
      split
      · rename_i hgo
        rw [ih]
        refine ⟨fun hgoes => ⟨fun later _ packet' hpacket' _ => ?_, hgoes⟩, And.right⟩
        rw [bincode.serialize_injective (hpacket'.symm.trans hpacket.symm)]
        exact hgo
      · rename_i hgo
        rw [eq_comm, List.map_eq_nil_iff, haligns.messages_eq_nil]
        constructor
        · intro hnil
          refine ⟨fun later hlater _ _ hne => absurd (hnil later hlater) hne, ?_⟩
          exact List.pairwise_of_forall_mem_list fun _ _ later hlater _ _ hne => absurd (hnil later hlater) hne
        · rintro ⟨hgoes, -⟩ later hlater
          by_contra hne
          exact hgo (hgoes later hlater packet hpacket.symm hne)

/-- If every piece is as long as a message, the pieces are the messages that were sent. -/
theorem Delivers.messages_eq {sent : List Packet} (h : Delivers bincode sent turns) (hwhole : Whole bincode turns) :
    Aligned bincode turns ∧ messages bincode turns = sent := by
  have hpieces : (turns.map Turn.bytes).filter (· ≠ []) = sent.map bincode.serialize := by
    refine bincode.eq_map_serialize bincode.size_pos ?_ ?_
    · simpa [Whole] using hwhole
    · rw [List.flatten_filter_ne_nil, ← List.flatMap_def, h.stream]
  constructor
  · intro turn hturn hne
    have hmem : turn.bytes ∈ (turns.map Turn.bytes).filter (· ≠ []) :=
      List.mem_filter.mpr ⟨List.mem_map_of_mem hturn, by simpa using hne⟩
    rw [hpieces] at hmem
    obtain ⟨packet, -, hpacket⟩ := List.mem_map.mp hmem
    exact ⟨packet, (bincode.deserialize_eq_some _ _).mpr hpacket⟩
  · rw [messages, ← filterMap_pieces, hpieces, bincode.filterMap_map_serialize]

/-- **The messages of a client are handled, each once and in order**, if and only if each read
returned as many bytes as a message has, and none but the last message ends the thread. -/
theorem handleClient_exact_iff (bincode : Codec Packet) (clientId : Uuid) {sent : List Packet} {turns : List Turn}
    (h : Delivers bincode sent turns) :
    handleClient bincode clientId turns = sent.map (Packet.sentBy clientId) ↔
      Whole bincode turns ∧ GoesOn bincode clientId turns := by
  constructor
  · intro hall
    have hlength : sent.length ≤ (messages bincode turns).length := by
      have hprefix : handleClient bincode clientId turns <+: _ := handleClient_prefix h.brings
      simpa [hall] using hprefix.length_le
    have hwhole : Whole bincode turns := by
      have hread : (turns.map Turn.bytes).flatten.length ≤ (messages bincode turns).length * bincode.size := by
        rw [← List.flatMap_def, h.stream, bincode.length_flatMap_serialize]
        exact Nat.mul_le_mul_right _ hlength
      simpa [Whole] using bincode.length_eq_size hread
    obtain ⟨halign, hsent⟩ := h.messages_eq hwhole
    exact ⟨hwhole, (halign.handleClient_eq_iff h.brings).mp (by rw [hsent, hall])⟩
  · rintro ⟨hwhole, hgoes⟩
    obtain ⟨halign, hsent⟩ := h.messages_eq hwhole
    rw [(halign.handleClient_eq_iff h.brings).mpr hgoes, hsent]

/-- **A message that comes in two pieces is not handled**, wherever it is cut. -/
theorem handleClient_pieces (bincode : Codec Packet) (clientId : Uuid) (packet : Packet) {k : ℕ} (hpos : 0 < k)
    (hk : k < bincode.size) {first second : Turn} (hfirst : first.read = some (.ok ((bincode.serialize packet).take k)))
    (hsecond : second.read = some (.ok ((bincode.serialize packet).drop k))) :
    Delivers bincode [packet] [first, second] ∧ handleClient bincode clientId [first, second] = [] := by
  have hlength : ((bincode.serialize packet).take k).length = k := by simp; omega
  have hlength' : ((bincode.serialize packet).drop k).length = bincode.size - k := by simp
  have hbytes : first.bytes = (bincode.serialize packet).take k := by simp [Turn.bytes, hfirst]
  have hbytes' : second.bytes = (bincode.serialize packet).drop k := by simp [Turn.bytes, hsecond]
  have hbrings : first.Brings bincode.size := .inr (.inr ⟨_, hfirst, by omega, by omega⟩)
  have hbrings' : second.Brings bincode.size := .inr (.inr ⟨_, hsecond, by omega, by omega⟩)
  refine ⟨⟨?_, ?_⟩, ?_⟩
  · simp [hbytes, hbytes', List.take_append_drop]
  · simp [hbrings, hbrings']
  · rw [handleClient_of_none hbrings (bincode.deserialize_eq_none (by rw [hbytes]; omega)),
      handleClient_of_none hbrings' (bincode.deserialize_eq_none (by rw [hbytes']; omega)), handleClient]

end Loop

/-- A client sets a block. -/
def setsBlock : Packet := .new (3, 5) .BlockSet (0x40E00000, 0x41200000, 0x40E00000) 0 7

/-- A client leaves. -/
def leaves : Packet := .new (3, 5) .Disconnect (0, 0, 0) 0 0

/-- A turn that reads some bytes. -/
def reading (bytes : List UInt8) : Turn := ⟨some (.ok bytes), .quiet, true⟩

/-- A turn that finds nothing to read. -/
def waiting : Turn := ⟨some .wouldBlock, .quiet, true⟩

theorem goesOn_setsBlock (bytes : List UInt8) : (reading bytes).goesOn (3, 5) (setsBlock.sentBy (3, 5)) := rfl

/-- A block is set, and the client leaves. -/
def setsBlockAndLeaves : List Turn :=
  [waiting, reading (Packet.codec.serialize setsBlock), waiting, reading (Packet.codec.serialize leaves)]

/-- Messages that come whole are handled, also the last one. -/
theorem handleClient_exact_iff_leaves : handleClient Packet.codec (3, 5) setsBlockAndLeaves = [setsBlock, leaves] := by
  have hreads : ∀ packet, (reading (Packet.codec.serialize packet)).Brings Packet.codec.size := fun packet =>
    .inr (.inr ⟨_, rfl, by simp [Packet.codec.size_pos], (Packet.codec.length_serialize packet).le⟩)
  have hwaits : waiting.Brings Packet.codec.size := .inr (.inl rfl)
  have hdelivers : Delivers Packet.codec [setsBlock, leaves] setsBlockAndLeaves :=
    ⟨rfl, by simp [setsBlockAndLeaves, hreads, hwaits]⟩
  refine (handleClient_exact_iff Packet.codec (3, 5) hdelivers).mpr ⟨?_, ?_⟩
  · simp [Whole, Turn.bytes, setsBlockAndLeaves, reading, waiting]
  · have hnone : ∀ packet, waiting.bytes ≠ Packet.codec.serialize packet := fun packet h =>
      absurd (congrArg List.length h) (by simp [waiting, Turn.bytes, Packet.codec.size_pos.ne])
    refine .cons (fun _ _ packet h => absurd h (hnone packet)) (.cons ?_
      (.cons (fun _ _ packet h => absurd h (hnone packet)) (.cons (by simp) .nil)))
    intro later _ packet hpacket _
    have hsame : setsBlock = packet := Packet.codec.serialize_injective hpacket
    rw [← hsame]
    exact goesOn_setsBlock _

/-- **A block that comes in two pieces is not set.** -/
theorem handleClient_losesBlock : ¬ ∀ (sent : List Packet) (turns : List Turn), Delivers Packet.codec sent turns →
    (∀ turn ∈ turns, ∀ packet ∈ sent, turn.goesOn (3, 5) (packet.sentBy (3, 5))) →
      handleClient Packet.codec (3, 5) turns = sent.map (Packet.sentBy (3, 5)) := by
  intro h
  have hfirst : (reading ((Packet.codec.serialize setsBlock).take 100)).read = _ := rfl
  have hsecond : (reading ((Packet.codec.serialize setsBlock).drop 100)).read = _ := rfl
  obtain ⟨hdelivers, hnone⟩ := handleClient_pieces Packet.codec (3, 5) setsBlock (by decide) (by decide) hfirst hsecond
  have hall := h _ _ hdelivers (by simp [goesOn_setsBlock])
  rw [hnone] at hall
  cases hall

end Framing

end Distgard
