import Distgard.Sessions

/-!
# What clients are told

A handler stores what a message of its client says, and sends the message to all clients that are
ready, its own one included. A new client first asks for the files of the database, and is ready
from its first update on. What a client knows of a block or a chest is what the last of all this
says.

Storing and sending are two steps. Two handlers that store to one cell may send their messages in
the other order, and what is stored between the reading of a file and the first update of the
client that asked for it is not told to that client.

## The model

A handler has the lock of what it stores to from the first store to the last statement, so that
its section is one step here. The lock of the clients makes one step of sending a message to all.
A file is read in one step, and written to the client later; its header is written together with
it. What is read while a statement is being executed can be anything. A write may fail, and leaves a
part of what it writes in the stream. A handler that cannot read a message, or finds nothing to read,
goes on with an empty one, which it sends to the others; to its own client it sends as many bytes of
a message as it has read.

A client is let in under an identity that no other client has at the time. Restarts are left out,
which end all streams. The code of the client is not in the source; what a client is told is what the
messages say, and nothing is said here of inventories.

## What is proved

* `told_current` — in every run in which nobody takes off, no two handlers are at one key at the same
  time and nothing is stored there while a client comes in, what that client has been told of the key
  is what the server has there, when no handler still has to tell of it.
* `broadcasts_agree` — in every run in which all that is written to two clients is written as a whole,
  one of them has been sent the end of what the other has been sent: the same messages in the same
  order, each from the moment it became ready, empty messages and their own position updates apart.
-/

namespace Distgard

open Lib

/-! ### Messages and what they say -/

namespace Message

/-- The message is about a key: its handler stores there. -/
def About (message : Message) (key : Key) : Prop :=
  match message.messageType with
  | .BlockSet => key = .block message.spot
  | .MultiBlockSet => key = .block message.spot ∨ key = .block message.otherpos
  | .ChestInvUpdate => message.info2 = 0 ∧ key = .chest message.otherpos
  | _ => False

/-- What is at a key after the message, by what the message says. -/
def tells (message : Message) (key : Key) (v : Option Value) : Option Value :=
  match message.messageType with
  | .BlockSet => if key = .block message.spot then some (.block message.info) else v
  | .MultiBlockSet =>
    if key = .block message.otherpos then some (.block message.info2)
    else if key = .block message.spot then some (.block message.info) else v
  | .ChestInvUpdate =>
    if message.info2 = 0 ∧ key = .chest message.otherpos then
      (v.or key.fresh).map (Value.setSlot message.slotIndex message.contents)
    else v
  | _ => v

end Message

namespace Server

/-- Do the actions of a section until one fails, and tell whether all have been done. -/
def runSection : List Action → Server → Server × Bool
  | [], s => (s, true)
  | a :: as, s =>
    match act a s with
    | some s' => runSection as s'
    | none => (s, false)

/-- What a handler does to the server for a message, and whether it goes on afterwards. -/
def handle (clientId : Uuid) (message : Message) (s : Server) : Server × Bool :=
  match handleMessage clientId message with
  | some (_, as) => runSection as s
  | none => (s, true)

/-- What is in the slot that a message stores to. -/
def wasthere (clientId : Uuid) (message : Message) (s : Server) : Option Slot :=
  match message.info2 with
  | 0 => ((s.chestReg.lookup message.otherpos).getD .untouched).inv[message.slotIndex]?
  | 1 => (s.clients.lookup clientId).bind fun cli => cli.inv.inv[message.slotIndex]?
  | _ => none

/-- The message as its handler sends it on: if it asks for that it says what was in the slot. -/
def answered (clientId : Uuid) (message : Message) (s : Server) : Message :=
  match message.messageType, message.bo, wasthere clientId message s with
  | .ChestInvUpdate, true, some slot => { message with x := .ofU32 slot.1, y := .ofU32 slot.2 }
  | _, _, _ => message

end Server

/-! ### Sending -/

/-- A message that says nothing. -/
def Message.none : Message where
  messageType := .None
  x := .finite 0
  y := .finite 0
  z := .finite 0
  rot := .finite 0
  info := 0
  info2 := 0
  infof := .finite 0
  goose := (0, 0)
  otherpos := ⟨0, 0, 0⟩
  bo := false

/-- What a handler reads from its client, at most as many bytes as a message has. -/
inductive Received where
  /-- A message. -/
  | whole (message : Message)
  /-- Something that is not one; it may be as long as one. -/
  | broken (full : Bool)
  /-- Nothing. -/
  | nothing

namespace Received

/-- The message that the handler goes on with; it names the client. -/
def message (clientId : Uuid) : Received → Message
  | .whole message => { message with goose := clientId }
  | .broken _ => { Message.none with goose := clientId }
  | .nothing => .none

/-- As many bytes have been read as a message has. -/
def isWhole : Received → Bool
  | .whole _ => true
  | .broken full => full
  | .nothing => false

end Received

/-- What a client alone is answered. -/
inductive Answer where
  /-- A file, as it was read: the one with the blocks, or the one with the chests. -/
  | file (kind : MessageType) (db : Database)
  /-- A message. -/
  | note (kind : MessageType)

/-- What is written to a client. -/
inductive Sent where
  /-- An answer. -/
  | answer (answer : Answer)
  /-- A part of an answer: writing it failed. -/
  | cut
  /-- A message that is sent to all. -/
  | message (m : Message)
  /-- A part of one, or nothing of it. -/
  | part (m : Message)

/-- The message that asks for the file in which a key is. -/
def Key.request : Key → MessageType
  | .block _ => .RequestUdm
  | .chest _ | .inv _ => .ReqChestReg

/-- The file in which a key is. -/
def Key.file : Key → MessageType
  | .block _ => .Udm
  | .chest _ | .inv _ => .ChestReg

/-- What a client makes of something that is written to it, at a key. -/
def Sent.tells (seed : UInt32) (key : Key) (v : Option Value) : Sent → Option Value
  | .answer (.file kind db) => if kind = key.file then db.row seed key else v
  | .message m => m.tells key v
  | .answer (.note _) | .cut | .part _ => v

/-- What a client has been told of a key. -/
def told (seed : UInt32) (key : Key) (stream : List Sent) : Option Value := stream.foldl (Sent.tells seed key) none

/-- The messages to all that are in a stream as a whole. -/
def broadcasts (stream : List Sent) : List Message :=
  stream.filterMap fun
    | .message m => some m
    | .answer _ | .cut | .part _ => none

/-- The handler panics when it cannot write this. -/
def Answer.unwraps : Answer → Bool
  | .file .Udm _ | .note .Seed => true
  | _ => false

/-- What the client alone is answered. -/
def answers (db : Database) : MessageType → List Answer
  | .RequestUdm => [.file .Udm db]
  | .ReqChestReg => [.file .ChestReg db]
  | .RequestSeed => [.note .Seed]
  | .RequestPt => [.note .Pt, .note .YourId]
  | .PlayerUpdate => [.note .TimeUpdate]
  | _ => []

/-- Where a handler is in its loop. -/
inductive Stage where
  /-- It is about to read. -/
  | idle
  /-- It has done what the message asks for; it has still to write the answers to its client, and then to
  send the message to all. -/
  | handled (message : Message) (whole : Bool) (answers : List Answer)

/-- A server with its handlers, and all that has been written to each client since it was let in. -/
structure Broadcast where
  /-- The server. -/
  server : Server
  /-- The handlers. -/
  stage : ℕ → Stage
  /-- What has been written. -/
  streams : Uuid → List Sent

/-- What can happen. -/
inductive BroadcastEvent where
  /-- A handler reads, and does what the message asks for. -/
  | handle (t : ℕ) (received : Received)
  /-- It writes an answer, which may fail. -/
  | write (t : ℕ) (fails : Bool)
  /-- It sends its message to all clients; some of the writes fail. -/
  | tell (t : ℕ) (fails : Uuid → Bool)
  /-- The thread for the database takes a step. -/
  | sql
  /-- A client is let in. -/
  | letIn (id : Uuid)
  /-- A handler takes its client from the others. -/
  | leave (t : ℕ)

namespace Broadcast

open Server

/-- The client is there, and is sent messages. -/
def ready (s : Broadcast) (id : Uuid) : Bool := (s.server.clients.lookup id).any Client.readyForPlayerMessages

/-- What has been written when something more is written to a client. -/
def writeTo (id : Uuid) (sent : Sent) (s : Broadcast) : Uuid → List Sent :=
  Function.update s.streams id (s.streams id ++ [sent])

/-- What has been written when a message has been sent to all: its sender gets as many bytes of it as have
been read, and nothing of its own position. -/
def sendAll (sender : Uuid) (message : Message) (whole : Bool) (fails : Uuid → Bool) (s : Broadcast) (id : Uuid) :
    List Sent :=
  if s.ready id = true ∧ (id ≠ sender ∨ message.messageType ≠ .PlayerUpdate) then
    s.streams id ++ [if fails id ∨ (id = sender ∧ whole = false) then .part message else .message message]
  else s.streams id

/-- What an event does. -/
inductive Happens (env : Externals) (clientId : ℕ → Uuid) : Broadcast → BroadcastEvent → Broadcast → Prop
  /-- The handler is free, and its client is there; it may panic. A file that it reads is the database, if
  no statement is being executed. -/
  | handle {s : Broadcast} {t : ℕ} {received : Received} {message : Message} {server : Server} {goesOn : Bool}
      {db : Database} :
      s.stage t = .idle → clientId t ∈ s.server.clients → received.message (clientId t) = message →
      message.messageType ≠ .RequestTakeoff → s.server.handle (clientId t) message = (server, goesOn) →
      (s.server.sqlThread = none → db = s.server.db) →
      Happens env clientId s (.handle t received)
        { server := server
          stage := Function.update s.stage t
            (if goesOn then
              .handled (answered (clientId t) message s.server) received.isWhole (answers db message.messageType)
            else .idle)
          streams := s.streams }
  /-- Its client takes off. -/
  | takeoff {s : Broadcast} {t : ℕ} {received : Received} {message : Message} {order : MapOrder} {newseed : UInt32}
      {disk : Disk} :
      s.stage t = .idle → clientId t ∈ s.server.clients → received.message (clientId t) = message →
      message.messageType = .RequestTakeoff → (∀ seed, disk.table seed = s.server.db.userdatamap seed) →
      Happens env clientId s (.handle t received)
        { server := (s.server.takeoff env order newseed disk).1
          stage := Function.update s.stage t (.handled message received.isWhole [])
          streams := s.streams }
  /-- There is an answer to write. -/
  | write {s : Broadcast} {t : ℕ} {message : Message} {whole : Bool} {answer : Answer} {rest : List Answer}
      {fails : Bool} :
      s.stage t = .handled message whole (answer :: rest) →
      Happens env clientId s (.write t fails)
        { server := s.server
          stage := Function.update s.stage t (if fails && answer.unwraps then .idle else .handled message whole rest)
          streams := s.writeTo (clientId t) (if fails then .cut else .answer answer) }
  /-- All answers have been written. -/
  | tell {s : Broadcast} {t : ℕ} {message : Message} {whole : Bool} {fails : Uuid → Bool} :
      s.stage t = .handled message whole [] →
      Happens env clientId s (.tell t fails)
        { server := s.server
          stage := Function.update s.stage t .idle
          streams := s.sendAll (clientId t) message whole fails }
  /-- The thread for the database does something. -/
  | sql {s : Broadcast} {server : Server} : SqlStep s.server server →
      Happens env clientId s .sql { s with server := server }
  /-- A client has connected that is not there; it has an inventory. -/
  | letIn {s : Broadcast} {id : Uuid} (inv : Inventory) : id ∉ s.server.clients →
      Happens env clientId s (.letIn id)
        { s with
          server := { s.server with clients := s.server.clients.insert id ⟨inv, 0, false⟩ }
          streams := Function.update s.streams id [] }
  /-- The client of a handler has gone. -/
  | leave {s : Broadcast} {t : ℕ} : s.stage t = .idle →
      Happens env clientId s (.leave t)
        { s with
          server := { s.server with clients := s.server.clients.erase (clientId t) }
          streams := Function.update s.streams (clientId t) [] }

/-- A server that has just been started. -/
def Initial (env : Externals) (s : Broadcast) : Prop :=
  (∃ sessions, Sessions.Initial env sessions ∧ s.server = sessions.threads.shared) ∧ (∀ t, s.stage t = .idle) ∧
    ∀ id, s.streams id = []

/-! ### Care -/

/-- A handler has stored to the key, and has not told of it. -/
def Pending (s : Broadcast) (key : Key) (t : ℕ) : Prop :=
  ∃ message whole answers, s.stage t = .handled message whole answers ∧ message.About key

/-- The client has been given the file in which the key is. -/
def Has (s : Broadcast) (id : Uuid) (key : Key) : Prop := ∃ db, .answer (.file key.file db) ∈ s.streams id

/-- The file has been read for the client, and messages do not reach it yet. -/
def ComingIn (clientId : ℕ → Uuid) (s : Broadcast) (id : Uuid) (key : Key) : Prop :=
  (∃ t message whole answers db, clientId t = id ∧ s.stage t = .handled message whole answers ∧
    .file key.file db ∈ answers) ∨ (s.Has id key ∧ s.ready id = false)

/-- Care is taken of a key, for a client. Nobody takes off. A handler stores to the key only when no other
one has still to tell of it and the client is not coming in. The client asks for the file before its first
update, and the file is read only when no statement is being executed, no handler has still to tell of the
key and the database has what was stored there. What the client sends can be read, and what is written to
it is written as a whole. -/
def Careful (clientId : ℕ → Uuid) (id : Uuid) (key : Key) (s : Broadcast) : BroadcastEvent → Prop
  | .handle t received =>
    (received.message (clientId t)).messageType ≠ .RequestTakeoff ∧
    ((received.message (clientId t)).About key → (∀ t', ¬ s.Pending key t') ∧ ¬ s.ComingIn clientId id key) ∧
    (clientId t = id → (∀ full, received ≠ .broken full) ∧
      ((received.message (clientId t)).messageType = key.request → s.ready id = false ∧ s.server.sqlThread = none ∧
        (∀ t', ¬ s.Pending key t') ∧ s.server.Executed s.server.currseed key))
  | .write t fails => clientId t = id → fails = false
  | .tell _ fails => fails id = false
  | _ => True

end Broadcast

/-! ### What a message says -/

/-- What a message says changes a key that it is about, and no other. -/
theorem Message.tells_of_not_about {message : Message} {key : Key} (h : ¬ message.About key) (v : Option Value) :
    message.tells key v = v := by
  unfold Message.About at h
  unfold Message.tells
  split at h
  · exact if_neg h
  · rw [if_neg (fun he => h (.inr he)), if_neg (fun he => h (.inl he))]
  · exact if_neg h
  · rfl

/-- It makes no difference whether a chest is there that nothing was stored to. -/
theorem Message.tells_or {message : Message} {key : Key} {v v' : Option Value} (h : v.or key.fresh = v'.or key.fresh) :
    (message.tells key v).or key.fresh = (message.tells key v').or key.fresh := by
  unfold Message.tells
  split
  · split <;> simp [h]
  · split
    · rfl
    · split <;> simp [h]
  · split
    · rw [h]
    · exact h
  · exact h

/-- What was in a slot makes no difference to what the message says. -/
theorem Server.tells_answered (clientId : Uuid) (message : Message) (s : Server) (key : Key) (v : Option Value) :
    (answered clientId message s).tells key v = message.tells key v := by
  unfold answered
  split
  · next htype _ _ =>
    simp only [Message.tells, htype, Message.slotIndex, Message.contents]
  · rfl

theorem Server.about_answered (clientId : Uuid) (message : Message) (s : Server) (key : Key) :
    (answered clientId message s).About key ↔ message.About key := by
  unfold answered
  split
  · next htype _ _ => simp only [Message.About, htype]
  · rfl

theorem Server.messageType_answered (clientId : Uuid) (message : Message) (s : Server) :
    (answered clientId message s).messageType = message.messageType := by
  unfold answered
  split <;> rfl

/-- A message that says something is not an update of a position. -/
theorem Message.About.ne_playerUpdate {message : Message} {key : Key} (h : message.About key) :
    message.messageType ≠ .PlayerUpdate := by
  intro htype
  simp [Message.About, htype] at h

/-- It is not answered. -/
theorem Message.About.answers_eq_nil {message : Message} {key : Key} (h : message.About key) (db : Database) :
    answers db message.messageType = [] := by
  cases htype : message.messageType <;> simp [Message.About, htype] at h <;> rfl

/-! ### What a handler stores -/

namespace Server

theorem fst_runSection (as : List Action) (s : Server) : (runSection as s).1 = Monitor.alone act as s := by
  induction as generalizing s with
  | nil => rfl
  | cons a as ih =>
    rw [runSection, Monitor.alone]
    cases act a s with
    | none => rfl
    | some s' => exact ih s'

/-- What a handler leaves at a key of its lock. -/
theorem view_handle {clientId : Uuid} {message : Message} {key : Key} {as : List Action}
    (h : handleMessage clientId message = some (key.lock, as)) (s : Server) :
    view key (s.handle clientId message).1 = Monitor.alone (Seen.after key) as (view key s) := by
  have hlock : ∀ a ∈ as, a.lock = key.lock := lock_of_handleMessage h
  rw [handle, h, fst_runSection]
  exact (guards_upToDate (fun _ => clientId) key).view_alone hlock s

/-- What it leaves elsewhere. -/
theorem view_handle_of_ne {clientId : Uuid} {message : Message} {key : Key}
    (h : ∀ as, handleMessage clientId message ≠ some (key.lock, as)) (s : Server) :
    view key (s.handle clientId message).1 = view key s := by
  unfold handle
  cases hm : handleMessage clientId message with
  | none => rfl
  | some section_ =>
    have hlock : ∀ a ∈ section_.2, a.lock = section_.1 := lock_of_handleMessage hm
    have hne : key.lock ≠ section_.1 := fun he => h section_.2 (by rw [hm, he])
    simp only [fst_runSection]
    exact (guards_upToDate (fun _ => clientId) key).view_alone_of_ne hlock hne s

/-- The sections that store to blocks and chests. -/
theorem handleMessage_cases {clientId : Uuid} {message : Message} {key : Key} {as : List Action}
    (hkey : ∀ id, key ≠ .inv id) (h : handleMessage clientId message = some (key.lock, as)) :
    (message.messageType = .BlockSet ∧
      as = [.setBlock message.spot message.info, .queueBlock message.spot message.info]) ∨
    (message.messageType = .MultiBlockSet ∧
      as = [.setBlock message.spot message.info, .setBlock message.otherpos message.info2,
        .queueBlock message.spot message.info, .queueBlock message.otherpos message.info2]) ∨
    (message.messageType = .ChestInvUpdate ∧ message.info2 = 0 ∧ key = .chest message.otherpos ∧
      as = [.openChest message.otherpos, .setChestSlot message.otherpos message.slotIndex message.contents,
        .queueChest message.otherpos]) := by
  have hclient : Lock.client clientId ≠ key.lock := fun h => hkey clientId (eq_inv_of_lock h)
  unfold handleMessage at h
  split at h
  · next htype =>
    split at h
    · next hzero =>
      obtain ⟨hlock, rfl⟩ : Lock.chest message.otherpos = key.lock ∧ _ := by simpa using h
      exact .inr (.inr ⟨htype, hzero, eq_chest_of_lock hlock, rfl⟩)
    · exact absurd (by simpa using congrArg (Option.map Prod.fst) h) hclient
    · cases h
  · exact absurd (by simpa using congrArg (Option.map Prod.fst) h) hclient
  · next htype =>
    obtain ⟨-, rfl⟩ : Lock.csys = key.lock ∧ _ := by simpa using h
    exact .inl ⟨htype, rfl⟩
  · next htype =>
    obtain ⟨-, rfl⟩ : Lock.csys = key.lock ∧ _ := by simpa using h
    exact .inr (.inl ⟨htype, rfl⟩)
  · cases h

/-- A message about a key has a section under its lock. -/
theorem exists_section {message : Message} {key : Key} (h : message.About key) (clientId : Uuid) :
    ∃ as, handleMessage clientId message = some (key.lock, as) := by
  unfold Message.About at h
  unfold handleMessage
  split at h
  · next htype =>
    rw [htype, h]
    exact ⟨_, rfl⟩
  · next htype =>
    rw [htype]
    rcases h with rfl | rfl <;> exact ⟨_, rfl⟩
  · next htype =>
    rw [htype, h.1, h.2]
    exact ⟨_, rfl⟩
  · exact h.elim

/-- A slot that does not exist is not changed. -/
theorem map_setSlot_memory {slot : ℕ} (hslot : ¬ slot < ROWLENGTH * 4) (pos : IVec3) (contents : Slot) (s : Server) :
    ((s.memory (.chest pos)).or (Key.fresh (.chest pos))).map (Value.setSlot slot contents) =
      (s.memory (.chest pos)).or (Key.fresh (.chest pos)) := by
  have hset : ∀ chest : ChestInventory, chest.inv.set slot contents = chest.inv := fun chest =>
    List.set_eq_of_length_le (by rw [chest.length_inv]; omega)
  cases hchest : s.chestReg.lookup pos with
  | none => simp [memory, hchest, Key.fresh, Value.setSlot, hset]
  | some chest => simp [memory, hchest, Value.setSlot, hset]

/-- **A handler stores what its message says**, to blocks and chests. If it panics the slot does not
exist, and nothing is different but that the chest may be there now. -/
theorem memory_handle {key : Key} (hkey : ∀ id, key ≠ .inv id) (clientId : Uuid) (message : Message) (s : Server) :
    ((s.handle clientId message).1.memory key).or key.fresh = (message.tells key (s.memory key)).or key.fresh := by
  have hmemory : ∀ s : Server, (view key s).memory = s.memory key := fun _ => rfl
  by_cases hsection : ∃ as, handleMessage clientId message = some (key.lock, as)
  · obtain ⟨as, hm⟩ := hsection
    rw [← hmemory, view_handle hm, ← hmemory, Message.tells]
    rcases handleMessage_cases hkey hm with ⟨htype, rfl⟩ | ⟨htype, rfl⟩ | ⟨htype, hzero, rfl, rfl⟩
    · by_cases hspot : key = .block message.spot <;> simp [Monitor.alone, Seen.after, htype, hspot]
    · by_cases hspot₂ : key = .block message.otherpos
      · by_cases hsame : message.otherpos = message.spot <;> simp [Monitor.alone, Seen.after, htype, hspot₂, hsame]
      · by_cases hspot : key = .block message.spot
        · subst hspot
          simp [Monitor.alone, Seen.after, htype, hspot₂]
        · simp [Monitor.alone, Seen.after, htype, hspot, hspot₂]
    · by_cases hslot : message.slotIndex < ROWLENGTH * 4
      · cases hchest : (view (.chest message.otherpos) s).memory <;>
          simp [Monitor.alone, Seen.after, htype, hzero, hslot, hchest, Key.fresh]
      · have hsame := map_setSlot_memory hslot message.otherpos message.contents s
        rw [← hmemory] at hsame
        cases hchest : (view (.chest message.otherpos) s).memory <;>
          simpa [Monitor.alone, Seen.after, htype, hzero, hslot, hchest, Key.fresh, eq_comm] using hsame
  · rw [← hmemory, view_handle_of_ne (fun as h => hsection ⟨as, h⟩), hmemory,
      Message.tells_of_not_about fun h => hsection (exists_section h clientId)]

/-- A handler panics only at a slot that does not exist, and changes nothing then. -/
theorem memory_handle_of_panic {key : Key} (hkey : ∀ id, key ≠ .inv id) {clientId : Uuid} {message : Message}
    {s : Server} (hpanic : (s.handle clientId message).2 = false) :
    ((s.handle clientId message).1.memory key).or key.fresh = (s.memory key).or key.fresh := by
  rw [memory_handle hkey]
  by_cases habout : message.About key
  · obtain ⟨as, hm⟩ := exists_section habout clientId
    rw [handle, hm] at hpanic
    rcases handleMessage_cases hkey hm with ⟨-, rfl⟩ | ⟨-, rfl⟩ | ⟨htype, hzero, rfl, rfl⟩
    · cases hpanic
    · cases hpanic
    · by_cases hslot : message.slotIndex < ROWLENGTH * 4
      · by_cases hpos : message.otherpos ∈ s.chestReg
        · obtain ⟨chest, hchest⟩ := Finmap.mem_iff.mp hpos
          simp [runSection, act, hpos, hchest, hslot] at hpanic
        · simp [runSection, act, hpos, hslot] at hpanic
      · have hsame := map_setSlot_memory hslot message.otherpos message.contents s
        rw [Message.tells, htype]
        simp only [hzero, and_self, if_true]
        rw [hsame]
        simp [Key.fresh]
  · rw [Message.tells_of_not_about habout]

/-- No client is less ready after an action than before. -/
theorem ready_act {a : Action} {s s' : Server} (h : act a s = some s') {id : Uuid}
    (hready : (s.clients.lookup id).any Client.readyForPlayerMessages = true) :
    (s'.clients.lookup id).any Client.readyForPlayerMessages = true := by
  have hput : ∀ (id' : Uuid) (cli' : Client), (id = id' → cli'.readyForPlayerMessages = true) →
      ((s.clients.insert id' cli').lookup id).any Client.readyForPlayerMessages = true := by
    intro id' cli' hcli'
    rw [HashMap.lookup_insert']
    split
    · next hid => exact hcli' hid
    · exact hready
  cases a with
  | setBlock spot block => cases h; exact hready
  | queueBlock spot block => cases h; exact hready
  | openChest pos => cases h; exact hready
  | setChestSlot pos slot contents =>
    rw [act] at h
    split at h
    · split at h <;> cases h
      exact hready
    · cases h
  | queueChest pos =>
    obtain ⟨chest, -, rfl⟩ := Option.map_eq_some_iff.mp h
    exact hready
  | setInvSlot id' slot contents =>
    rw [act] at h
    split at h
    · next cli hcli =>
      split at h <;> cases h
      refine hput id' _ ?_
      rintro rfl
      simpa [hcli] using hready
    · cases h
      exact hready
  | queueInv id' =>
    obtain ⟨cli, -, rfl⟩ := Option.map_eq_some_iff.mp h
    exact hready
  | updatePlayer id' position =>
    obtain ⟨cli, -, rfl⟩ := Option.map_eq_some_iff.mp h
    split
    · exact hput id' _ fun _ => rfl
    · exact hput id' _ fun _ => rfl

/-- The seed stays. -/
theorem currseed_act {a : Action} {s s' : Server} (h : act a s = some s') : s'.currseed = s.currseed := by
  cases a with
  | setBlock spot block => cases h; rfl
  | queueBlock spot block => cases h; rfl
  | openChest pos => cases h; rfl
  | setChestSlot pos slot contents =>
    rw [act] at h
    split at h
    · split at h <;> cases h
      rfl
    · cases h
  | queueChest pos =>
    obtain ⟨chest, -, rfl⟩ := Option.map_eq_some_iff.mp h
    rfl
  | setInvSlot id slot contents =>
    rw [act] at h
    split at h
    · split at h <;> cases h
      rfl
    · cases h
      rfl
  | queueInv id =>
    obtain ⟨cli, -, rfl⟩ := Option.map_eq_some_iff.mp h
    rfl
  | updatePlayer id position =>
    obtain ⟨cli, -, rfl⟩ := Option.map_eq_some_iff.mp h
    split <;> rfl

/-- What every action keeps, a handler keeps. -/
theorem handle_induct {P : Server → Prop} (hact : ∀ a s s', act a s = some s' → P s → P s') {clientId : Uuid}
    {message : Message} {s : Server} (h : P s) : P (s.handle clientId message).1 := by
  have hrun : ∀ (as : List Action) (s : Server), P s → P (runSection as s).1 := by
    intro as
    induction as with
    | nil => exact fun s hs => hs
    | cons a as ih =>
      intro s hs
      rw [runSection]
      cases ha : act a s with
      | none => exact hs
      | some s' => exact ih s' (hact a s s' ha hs)
  unfold handle
  split
  · exact hrun _ s h
  · exact h

/-- The database keeps up with a handler. -/
theorem upToDate_handle {clientId : Uuid} {message : Message} {key : Key} {s : Server} (h : (view key s).UpToDate key) :
    (view key (s.handle clientId message).1).UpToDate key := by
  by_cases hsection : ∃ as, handleMessage clientId message = some (key.lock, as)
  · obtain ⟨as, hm⟩ := hsection
    rw [view_handle hm]
    exact upToDate_of_handleMessage hm h
  · rw [view_handle_of_ne fun as h => hsection ⟨as, h⟩]
    exact h

end Server


/-! ### The invariant -/

theorem told_append (seed : UInt32) (key : Key) (stream : List Sent) (sent : Sent) :
    told seed key (stream ++ [sent]) = sent.tells seed key (told seed key stream) := by
  rw [told, List.foldl_append]
  rfl

namespace Broadcast

open Server

variable {env : Externals} {clientId : ℕ → Uuid} {id : Uuid} {key : Key} {s s' : Broadcast}

/-- What the server has at a key. -/
def kept (s : Broadcast) (key : Key) : Option Value := (s.server.memory key).or key.fresh

/-- What a client has been told is there. -/
def said (s : Broadcast) (id : Uuid) (key : Key) : Option Value :=
  (told s.server.currseed key (s.streams id)).or key.fresh

/-- **The invariant.** -/
structure Faithful (clientId : ℕ → Uuid) (id : Uuid) (key : Key) (s : Broadcast) : Prop where
  /-- The database will have what is in memory. -/
  upToDate : (view key s.server).UpToDate key
  /-- A message that stores something has been read as a whole, and is not answered. -/
  stores : ∀ t message whole answers, s.stage t = .handled message whole answers → message.About key →
    whole = true ∧ answers = []
  /-- No two handlers have still to tell of the key. -/
  one : ∀ t t', s.Pending key t → s.Pending key t' → t = t'
  /-- A file that has been read for the client has what is in memory. -/
  fetched : ∀ t message whole answers db, clientId t = id → s.stage t = .handled message whole answers →
    .file key.file db ∈ answers →
    (∀ t', ¬ s.Pending key t') ∧ (db.row s.server.currseed key).or key.fresh = s.kept key
  /-- What a handler has still to tell is what the client lacks. -/
  pending : s.Has id key → ∀ t message whole answers, s.stage t = .handled message whole answers → message.About key →
    s.ready id = true ∧ s.kept key = (message.tells key (told s.server.currseed key (s.streams id))).or key.fresh
  /-- Otherwise the client lacks nothing. -/
  settled : s.Has id key → (∀ t, ¬ s.Pending key t) → s.said id key = s.kept key

/-- What is about another key, or about another client, changes nothing. -/
theorem Faithful.congr (h : Faithful clientId id key s) (hupToDate : (view key s'.server).UpToDate key)
    (hkept : s'.kept key = s.kept key) (hseed : s'.server.currseed = s.server.currseed)
    (hstage : ∀ t message whole answers, message.About key →
      (s'.stage t = .handled message whole answers ↔ s.stage t = .handled message whole answers))
    (hfetched : ∀ t message whole answers db, clientId t = id → s'.stage t = .handled message whole answers →
      .file key.file db ∈ answers →
      (∀ t', ¬ s.Pending key t') ∧ (db.row s.server.currseed key).or key.fresh = s.kept key)
    (hhas : s'.Has id key → s.Has id key ∧ s'.said id key = s.said id key ∧ (s.ready id = true → s'.ready id = true)) :
    Faithful clientId id key s' := by
  have hpending : ∀ t, s'.Pending key t ↔ s.Pending key t := fun t =>
    exists_congr fun message => exists_congr fun whole => exists_congr fun answers =>
      and_congr_left fun habout => hstage t message whole answers habout
  refine ⟨hupToDate, ?_, ?_, ?_, ?_, ?_⟩
  · exact fun t message whole answers hst habout =>
      h.stores t message whole answers ((hstage t message whole answers habout).mp hst) habout
  · exact fun t t' ht ht' => h.one t t' ((hpending t).mp ht) ((hpending t').mp ht')
  · intro t message whole answers db hid hst hdb
    obtain ⟨hnone, hrow⟩ := hfetched t message whole answers db hid hst hdb
    exact ⟨fun t' ht' => hnone t' ((hpending t').mp ht'), by rw [hseed, hkept, hrow]⟩
  · intro hhas' t message whole answers hst habout
    obtain ⟨hhad, hsaid, hready⟩ := hhas hhas'
    obtain ⟨hr, hlacks⟩ :=
      h.pending hhad t message whole answers ((hstage t message whole answers habout).mp hst) habout
    refine ⟨hready hr, ?_⟩
    rw [hkept, hlacks]
    exact (Message.tells_or hsaid).symm
  · intro hhas' hnone
    obtain ⟨hhad, hsaid, -⟩ := hhas hhas'
    rw [hsaid, hkept]
    exact h.settled hhad fun t ht => hnone t ((hpending t).mpr ht)

/-! ### What each event keeps -/

theorem has_append {stream : List Sent} {sent : Sent} (hnot : ∀ db, sent ≠ .answer (.file key.file db)) :
    (∃ db, .answer (.file key.file db) ∈ stream ++ [sent]) ↔ ∃ db, .answer (.file key.file db) ∈ stream := by
  refine exists_congr fun db => ?_
  rw [List.mem_append, List.mem_singleton]
  exact or_iff_left fun h => hnot db h.symm

/-- Answers say nothing of a key, but for the file in which it is. -/
theorem told_append_answer {answer : Answer} (hnot : ∀ db, answer ≠ .file key.file db) (seed : UInt32)
    (stream : List Sent) : told seed key (stream ++ [.answer answer]) = told seed key stream := by
  rw [told_append]
  cases answer with
  | file kind db =>
    refine if_neg fun hkind => hnot db ?_
    rw [hkind]
  | note _ => rfl

/-- What is asked for is what is read. -/
theorem file_mem_answers {db db' : Database} {kind : MessageType} (h : .file key.file db' ∈ answers db kind) :
    kind = key.request ∧ db' = db := by
  cases key <;> cases kind <;> simp_all [answers, Key.file, Key.request]

theorem ready_handle (clientId' : Uuid) (message : Message) (h : s.ready id = true) :
    ((s.server.handle clientId' message).1.clients.lookup id).any Client.readyForPlayerMessages = true :=
  handle_induct (P := fun server => (server.clients.lookup id).any Client.readyForPlayerMessages = true)
    (fun _ _ _ ha hr => ready_act ha hr) h

theorem currseed_handle (server : Server) (clientId' : Uuid) (message : Message) :
    (server.handle clientId' message).1.currseed = server.currseed :=
  handle_induct (P := fun server' => server'.currseed = server.currseed)
    (fun _ _ _ ha hs => (currseed_act ha).trans hs) rfl

/-- The handler that does something is the only one of which it is known now where it is. -/
theorem stage_of_ne {t t' : ℕ} {new : Stage} (hstage : s'.stage = Function.update s.stage t new) (h : t' ≠ t) :
    s'.stage t' = s.stage t' := by
  rw [hstage, Function.update_of_ne h]

/-- A handler that has handled something is the one that has just come there, or was there before. -/
theorem stage_handled {t t' : ℕ} {new : Stage} {m : Message} {whole : Bool} {as : List Answer}
    (hstage : s'.stage = Function.update s.stage t new) (h : s'.stage t' = .handled m whole as) :
    (t' = t ∧ new = .handled m whole as) ∨ (t' ≠ t ∧ s.stage t' = .handled m whole as) := by
  by_cases ht' : t' = t
  · rw [hstage, ht', Function.update_self] at h
    exact .inl ⟨ht', h⟩
  · exact .inr ⟨ht', stage_of_ne hstage ht' ▸ h⟩

/-- A handler does what a message asks for. -/
theorem Faithful.handle (hkey : ∀ id, key ≠ .inv id) (h : Faithful clientId id key s) {t : ℕ} {received : Received}
    {db : Database} (hfree : s.stage t = .idle) (hcareful : s.Careful clientId id key (.handle t received))
    (hdb : s.server.sqlThread = none → db = s.server.db)
    (hserver : s'.server = (s.server.handle (clientId t) (received.message (clientId t))).1)
    (hstage : s'.stage = Function.update s.stage t
      (if (s.server.handle (clientId t) (received.message (clientId t))).2 then
        .handled (answered (clientId t) (received.message (clientId t)) s.server) received.isWhole
          (answers db (received.message (clientId t)).messageType)
      else .idle))
    (hstreams : s'.streams = s.streams) : Faithful clientId id key s' := by
  set message := received.message (clientId t) with hmessage
  have hseed : s'.server.currseed = s.server.currseed := by rw [hserver, currseed_handle]
  have hsame : told s'.server.currseed key (s'.streams id) = told s.server.currseed key (s.streams id) := by
    rw [hseed, hstreams]
  have hhas : s'.Has id key ↔ s.Has id key := by rw [Has, Has, hstreams]
  have hready : s.ready id = true → s'.ready id = true := by
    intro hr
    rw [ready, hserver]
    exact ready_handle _ _ hr
  have hmemory : s'.kept key = (message.tells key (s.server.memory key)).or key.fresh := by
    rw [kept, hserver, memory_handle hkey]
  have hupToDate : (view key s'.server).UpToDate key := hserver ▸ upToDate_handle h.upToDate
  have hnew : ∀ {m whole as}, s'.stage t = .handled m whole as →
      m = answered (clientId t) message s.server ∧ whole = received.isWhole ∧
        as = answers db message.messageType := by
    intro m whole as hst
    rw [hstage, Function.update_self] at hst
    split at hst
    · cases hst
      exact ⟨rfl, rfl, rfl⟩
    · cases hst
  have hwhole : message.About key → received.isWhole = true := by
    intro habout
    cases received with
    | whole _ => rfl
    | broken | nothing => exact habout.elim
  by_cases hstores : message.About key ∧ (s.server.handle (clientId t) message).2 = true
  · -- the message is about the key, and has now to be told
    obtain ⟨habout, hgoes⟩ := hstores
    obtain ⟨hnone, hin⟩ := hcareful.2.1 habout
    have hmine : s'.stage t = .handled (answered (clientId t) message s.server) received.isWhole
        (answers db message.messageType) := by
      rw [hstage, Function.update_self, if_pos hgoes]
    have honly : ∀ t', s'.Pending key t' → t' = t := by
      rintro t' ⟨m, whole, as, hst, hmabout⟩
      rcases stage_handled hstage hst with ⟨ht', -⟩ | ⟨-, hold⟩
      · exact ht'
      · exact absurd ⟨m, whole, as, hold, hmabout⟩ (hnone t')
    refine ⟨hupToDate, ?_, fun t₁ t₂ h₁ h₂ => (honly t₁ h₁).trans (honly t₂ h₂).symm, ?_, ?_, ?_⟩
    · intro t' m whole as hst hmabout
      obtain rfl := honly t' ⟨m, whole, as, hst, hmabout⟩
      obtain ⟨-, rfl, rfl⟩ := hnew hst
      exact ⟨hwhole habout, habout.answers_eq_nil _⟩
    · intro t' m whole as db' hid hst hmem
      rcases stage_handled hstage hst with ⟨rfl, -⟩ | ⟨-, hold⟩
      · obtain ⟨-, -, rfl⟩ := hnew hst
        rw [habout.answers_eq_nil] at hmem
        cases hmem
      · exact absurd (.inl ⟨t', m, whole, as, db', hid, hold, hmem⟩) hin
    · intro hhas' t' m whole as hst hmabout
      have hhad := hhas.mp hhas'
      obtain rfl := honly t' ⟨m, whole, as, hst, hmabout⟩
      obtain ⟨rfl, -, -⟩ := hnew hst
      refine ⟨hready ?_, ?_⟩
      · rw [← Bool.not_eq_false]
        exact fun hr => hin (.inr ⟨hhad, hr⟩)
      · rw [hsame, tells_answered, hmemory]
        exact Message.tells_or (h.settled hhad hnone).symm
    · intro _ hnone'
      exact absurd ⟨_, _, _, hmine, (about_answered ..).mpr habout⟩ (hnone' t)
  · refine h.congr hupToDate ?_ hseed ?_ ?_ fun hhas' => ⟨hhas.mp hhas', by rw [said, hsame, said], hready⟩
    · rcases not_and_or.mp hstores with hnot | hpanic
      · rw [hmemory, Message.tells_of_not_about hnot, kept]
      · rw [kept, hserver, memory_handle_of_panic hkey (by simpa using hpanic), kept]
    · intro t' m whole as hmabout
      by_cases ht' : t' = t
      · subst ht'
        refine iff_of_false (fun hst => ?_) (fun hst => ?_)
        · obtain ⟨rfl, -, -⟩ := hnew hst
          rw [hstage, Function.update_self] at hst
          split at hst
          · next hgoes => exact hstores ⟨(about_answered ..).mp hmabout, hgoes⟩
          · cases hst
        · rw [hfree] at hst
          cases hst
      · rw [stage_of_ne hstage ht']
    · intro t' m whole as db' hid hst hmem
      rcases stage_handled hstage hst with ⟨rfl, -⟩ | ⟨-, hold⟩
      · -- the file is read now: the database has what is in memory
        obtain ⟨-, -, rfl⟩ := hnew hst
        obtain ⟨hasks, rfl⟩ := file_mem_answers hmem
        obtain ⟨-, hquiet, hnone, hexecuted⟩ := (hcareful.2.2 hid).2 hasks
        refine ⟨hnone, ?_⟩
        rw [hdb hquiet, ← row_caughtUp_of_notWritten hexecuted]
        rcases h.upToDate with ⟨⟨id', hinv⟩, -⟩ | hsame
        · exact absurd hinv (hkey id')
        · exact hsame.symm
      · exact h.fetched t' m whole as db' hid hold hmem

/-- An answer is written. -/
theorem Faithful.write (h : Faithful clientId id key s) {t : ℕ} {message : Message} {whole : Bool}
    {answer : Answer} {rest : List Answer} {fails : Bool} (hst : s.stage t = .handled message whole (answer :: rest))
    (hfails : clientId t = id → fails = false) (hserver : s'.server = s.server)
    (hstage : s'.stage = Function.update s.stage t
      (if fails && answer.unwraps then .idle else .handled message whole rest))
    (hstreams : s'.streams = s.writeTo (clientId t) (if fails then .cut else .answer answer)) :
    Faithful clientId id key s' := by
  have hnew : ∀ {m whole' as}, s'.stage t = .handled m whole' as → m = message ∧ whole' = whole ∧ as = rest := by
    intro m whole' as hst'
    rw [hstage, Function.update_self] at hst'
    split at hst'
    · cases hst'
    · cases hst'
      exact ⟨rfl, rfl, rfl⟩
  have hnot : ¬ message.About key := fun habout => nomatch (h.stores t message whole _ hst habout).2
  have hkept : s'.kept key = s.kept key := by rw [kept, hserver, kept]
  have hready : s'.ready id = s.ready id := by rw [ready, hserver, ready]
  have hupToDate : (view key s'.server).UpToDate key := hserver ▸ h.upToDate
  have hsameStage : ∀ t' m whole' as, m.About key →
      (s'.stage t' = .handled m whole' as ↔ s.stage t' = .handled m whole' as) := by
    intro t' m whole' as hm
    by_cases ht' : t' = t
    · subst ht'
      refine iff_of_false (fun hst' => ?_) (fun hst' => ?_)
      · obtain ⟨rfl, -, -⟩ := hnew hst'
        exact hnot hm
      · rw [hst] at hst'
        cases hst'
        exact hnot hm
    · rw [stage_of_ne hstage ht']
  have hfetched : ∀ t' m whole' as db, clientId t' = id → s'.stage t' = .handled m whole' as → .file key.file db ∈ as →
      (∀ t'', ¬ s.Pending key t'') ∧ (db.row s.server.currseed key).or key.fresh = s.kept key := by
    intro t' m whole' as db hid hst' hdb
    rcases stage_handled hstage hst' with ⟨rfl, -⟩ | ⟨-, hold⟩
    · obtain ⟨-, -, rfl⟩ := hnew hst'
      exact h.fetched t' message whole _ db hid hst (List.mem_cons_of_mem _ hdb)
    · exact h.fetched t' m whole' as db hid hold hdb
  by_cases hmine : clientId t = id
  · have hwritten : s'.streams id = s.streams id ++ [.answer answer] := by
      rw [hstreams, hfails hmine, hmine, writeTo, Function.update_self]
      rfl
    by_cases hfile : ∃ db, answer = .file key.file db
    · -- the client is told what is in memory, of which nobody has still to tell
      obtain ⟨db, rfl⟩ := hfile
      obtain ⟨hnone, hrow⟩ := h.fetched t message whole _ db hmine hst (List.mem_cons_self ..)
      have hnone' : ∀ t', ¬ s'.Pending key t' := fun t' ⟨m, whole', as, hm, habout⟩ =>
        hnone t' ⟨m, whole', as, (hsameStage t' m whole' as habout).mp hm, habout⟩
      refine ⟨hupToDate, fun t' m whole' as hst' habout => absurd ⟨m, whole', as, hst', habout⟩ (hnone' t'),
        fun t' t'' ht' => absurd ht' (hnone' t'), fun t' m whole' as db' hid hst' hdb' => ?_,
        fun _ t' m whole' as hst' habout => absurd ⟨m, whole', as, hst', habout⟩ (hnone' t'), fun _ _ => ?_⟩
      · rw [hserver, hkept]
        exact ⟨hnone', (hfetched t' m whole' as db' hid hst' hdb').2⟩
      · rw [said, hwritten, told_append, hkept, hserver, Sent.tells, if_pos rfl]
        exact hrow
    · have hnotFile : ∀ db, answer ≠ .file key.file db := fun db heq => hfile ⟨db, heq⟩
      refine h.congr hupToDate hkept (by rw [hserver]) hsameStage hfetched fun hhas => ?_
      rw [Has, hwritten, has_append fun db heq => hnotFile db (Sent.answer.inj heq)] at hhas
      refine ⟨hhas, ?_, fun hr => hready.trans hr⟩
      rw [said, hwritten, told_append_answer hnotFile, hserver, said]
  · have hsame : s'.streams id = s.streams id := by
      rw [hstreams, writeTo, Function.update_of_ne (Ne.symm hmine)]
    exact h.congr hupToDate hkept (by rw [hserver]) hsameStage hfetched fun hhas =>
      ⟨by rwa [Has, hsame] at hhas, by rw [said, hsame, hserver, said], fun hr => hready.trans hr⟩

/-- A message is sent to all. -/
theorem Faithful.tell (h : Faithful clientId id key s) {t : ℕ} {message : Message} {whole : Bool} {fails : Uuid → Bool}
    (hst : s.stage t = .handled message whole []) (hfails : fails id = false) (hserver : s'.server = s.server)
    (hstage : s'.stage = Function.update s.stage t .idle)
    (hstreams : s'.streams = s.sendAll (clientId t) message whole fails) : Faithful clientId id key s' := by
  have hother : ∀ {t' m whole' as}, s'.stage t' = .handled m whole' as →
      t' ≠ t ∧ s.stage t' = .handled m whole' as := by
    intro t' m whole' as hst'
    rcases stage_handled hstage hst' with ⟨-, hnew⟩ | hold
    · cases hnew
    · exact hold
  have hkept : s'.kept key = s.kept key := by rw [kept, hserver, kept]
  have hready : s'.ready id = s.ready id := by rw [ready, hserver, ready]
  have hupToDate : (view key s'.server).UpToDate key := hserver ▸ h.upToDate
  have hhas : s'.Has id key → s.Has id key := by
    rw [Has, hstreams, sendAll]
    split
    · refine (has_append fun db => ?_).mp
      split <;> exact (nomatch ·)
    · exact fun h => h
  by_cases habout : message.About key
  · -- the client is told what it lacks
    have hpend : s.Pending key t := ⟨message, whole, [], hst, habout⟩
    have hnone' : ∀ t', ¬ s'.Pending key t' := by
      rintro t' ⟨m, whole', as, hst', hmabout⟩
      obtain ⟨hne, hst'⟩ := hother hst'
      exact hne (h.one t' t ⟨m, whole', as, hst', hmabout⟩ hpend)
    refine ⟨hupToDate, fun t' m whole' as hst' hmabout => absurd ⟨m, whole', as, hst', hmabout⟩ (hnone' t'),
      fun t' t'' ht' => absurd ht' (hnone' t'), fun t' m whole' as db hid hst' hdb => ?_,
      fun _ t' m whole' as hst' hmabout => absurd ⟨m, whole', as, hst', hmabout⟩ (hnone' t'), fun hhas' _ => ?_⟩
    · exact absurd hpend ((h.fetched t' m whole' as db hid (hother hst').2 hdb).1 t)
    · obtain ⟨hr, hlacks⟩ := h.pending (hhas hhas') t message whole [] hst habout
      obtain ⟨rfl, -⟩ := h.stores t message whole [] hst habout
      have hsent : s'.streams id = s.streams id ++ [.message message] := by
        rw [hstreams, sendAll, if_pos ⟨hr, .inr habout.ne_playerUpdate⟩, hfails]
        simp
      rw [said, hsent, told_append, hserver, hkept, hlacks, Sent.tells]
  · refine h.congr hupToDate hkept (by rw [hserver]) ?_ ?_ fun hhas' => ⟨hhas hhas', ?_, fun hr => hready.trans hr⟩
    · intro t' m whole' as hmabout
      refine ⟨fun hst' => (hother hst').2, fun hst' => ?_⟩
      have ht' : t' ≠ t := by
        rintro rfl
        rw [hst] at hst'
        cases hst'
        exact habout hmabout
      rw [stage_of_ne hstage ht', hst']
    · exact fun t' m whole' as db hid hst' hdb => h.fetched t' m whole' as db hid (hother hst').2 hdb
    · rw [said, hstreams, hserver, said, sendAll]
      split
      · rw [told_append]
        split
        · rfl
        · rw [Sent.tells, Message.tells_of_not_about habout]
      · rfl

/-- Clients come and go: the key stays as it is, and a client that has just come or gone has nothing. -/
theorem Faithful.clients (h : Faithful clientId id key s) {clients : HashMap Uuid Client} {id' : Uuid}
    (hview : view key { s.server with clients := clients } = view key s.server)
    (hlookup : id ≠ id' → clients.lookup id = s.server.clients.lookup id)
    (hserver : s'.server = { s.server with clients := clients }) (hstage : s'.stage = s.stage)
    (hstreams : s'.streams = Function.update s.streams id' []) : Faithful clientId id key s' := by
  have hview' : view key s'.server = view key s.server := hserver ▸ hview
  have hseed : s'.server.currseed = s.server.currseed := by rw [hserver]
  refine h.congr (hview' ▸ h.upToDate) (congrArg (fun w : Seen => w.memory.or key.fresh) hview') hseed
    (fun t m whole as _ => by rw [hstage])
    (fun t m whole as db hid hst => h.fetched t m whole as db hid (hstage ▸ hst)) ?_
  rintro ⟨db, hdb⟩
  have hne : id ≠ id' := by
    rintro rfl
    simp [hstreams] at hdb
  have hsame : s'.streams id = s.streams id := by rw [hstreams, Function.update_of_ne hne]
  refine ⟨⟨db, hsame ▸ hdb⟩, by rw [said, hsame, hseed, said], fun hr => ?_⟩
  rw [ready, hserver, hlookup hne]
  exact hr

theorem clients_sqlStep {server server' : Server} (h : SqlStep server server') :
    server'.clients = server.clients ∧ server'.currseed = server.currseed := by
  cases h <;> exact ⟨rfl, rfl⟩

/-- **One event** keeps the invariant. -/
theorem Faithful.step (hkey : ∀ id, key ≠ .inv id) (h : Faithful clientId id key s) {event : BroadcastEvent}
    (hcareful : s.Careful clientId id key event) (hstep : Happens env clientId s event s') :
    Faithful clientId id key s' := by
  cases hstep with
  | handle hfree _ hmessage _ hrun hdb =>
    subst hmessage
    refine h.handle hkey hfree hcareful hdb ?_ ?_ rfl
    · rw [hrun]
    · rw [hrun]
  | takeoff _ _ hmessage htype _ =>
    subst hmessage
    exact absurd htype hcareful.1
  | write hst => exact h.write hst hcareful rfl rfl rfl
  | tell hst => exact h.tell hst hcareful rfl rfl rfl
  | sql hs =>
    have hview := view_sqlStep hs key
    obtain ⟨hclients, hseed⟩ := clients_sqlStep hs
    refine h.congr (hview ▸ h.upToDate) (congrArg (fun w : Seen => w.memory.or key.fresh) hview) hseed
      (fun _ _ _ _ _ => Iff.rfl) h.fetched fun hhas => ⟨hhas, ?_, fun hr => ?_⟩
    · rw [said, hseed, said]
    · rw [ready, hclients]
      exact hr
  | @letIn id' inv _ =>
    refine h.clients ?_ (fun hne => Finmap.lookup_insert_of_ne _ hne) rfl rfl rfl
    exact (view_client id' ⟨inv, 0, false⟩ s.server.written s.server key).trans (if_neg (hkey id'))
  | @leave t _ =>
    refine h.clients ?_ (fun hne => Finmap.lookup_erase_ne hne) rfl rfl rfl
    exact (view_erase (clientId t) s.server key).trans (if_neg (hkey (clientId t)))

/-- A server that has just been started tells what it has. -/
theorem Initial.faithful (h : Initial env s) : Faithful clientId id key s := by
  obtain ⟨⟨sessions, ⟨db, files, hdb, hstarts⟩, hserver⟩, hidle, hnothing⟩ := h
  have hupToDate := (hstarts.spec hdb).2.1 key
  have hstage : ∀ {t m whole as}, s.stage t ≠ .handled m whole as := by
    intro t m whole as hst
    rw [hidle t] at hst
    cases hst
  have hnone : ¬ s.Has id key := by
    rintro ⟨db, hdb⟩
    rw [hnothing] at hdb
    cases hdb
  exact ⟨hserver ▸ hupToDate, fun _ _ _ _ hst => absurd hst hstage, fun _ _ ⟨_, _, _, hst, _⟩ => absurd hst hstage,
    fun _ _ _ _ _ _ hst => absurd hst hstage, fun hhas => absurd hhas hnone, fun hhas => absurd hhas hnone⟩

/-- **What a client has been told is what the server has**: in every run in which care is taken of a
block or a chest for a client, the client that has been given the file knows what is there, when no
handler has still to tell of it. -/
theorem told_current (env : Externals) (clientId : ℕ → Uuid) (id : Uuid) (key : Key) (hkey : ∀ id, key ≠ .inv id)
    {s : Broadcast} (h : Reached (Initial env) (Careful clientId id key) (Happens env clientId) s)
    (hhas : s.Has id key) (hnone : ∀ t, ¬ s.Pending key t) :
    (told s.server.currseed key (s.streams id)).or key.fresh = (s.server.memory key).or key.fresh := by
  have hfaithful : Faithful clientId id key s :=
    h.invariant (fun _ hinitial => hinitial.faithful) fun _ _ _ hs hcareful hstep => hs.step hkey hcareful hstep
  exact hfaithful.settled hhas hnone

/-! ### All are told the same -/

/-- A message that is sent to both of two clients: it is not empty, and no update of the position of one of
them. -/
def Counted (a b : Uuid) (m : Message) : Bool :=
  m.messageType ≠ .None && (m.messageType ≠ .PlayerUpdate || (m.goose ≠ a && m.goose ≠ b))

/-- What a client has been sent of such messages. -/
def heard (s : Broadcast) (a b id : Uuid) : List Message := (broadcasts (s.streams id)).filter (Counted a b)

/-- What is sent to one of two clients is written as a whole. -/
def Wholly (a b : Uuid) (_ : Broadcast) : BroadcastEvent → Prop
  | .tell _ fails => fails a = false ∧ fails b = false
  | _ => True

/-- What a handler has still to send names its client if it is an update of a position, and is empty if less
than a message has been read. -/
def Honest (clientId : Uuid) : Stage → Prop
  | .idle => True
  | .handled message whole _ =>
    (message.messageType = .PlayerUpdate → message.goose = clientId) ∧ (whole = false → message.messageType = .None)

/-- Each of two clients has been sent the end of one list of messages. -/
structure Common (clientId : ℕ → Uuid) (a b : Uuid) (log : List Message) (s : Broadcast) : Prop where
  /-- What has still to be sent. -/
  honest : ∀ t, Honest (clientId t) (s.stage t)
  /-- What has been sent. -/
  sent : ∀ id, id = a ∨ id = b → s.heard a b id <:+ log ∧ (s.ready id = false → s.heard a b id = [])

variable {a b : Uuid} {log : List Message}

theorem broadcasts_append (stream : List Sent) {sent : Sent} (h : ∀ m, sent ≠ .message m) :
    broadcasts (stream ++ [sent]) = broadcasts stream := by
  rw [broadcasts, List.filterMap_append]
  cases sent with
  | message m => exact absurd rfl (h m)
  | answer _ | cut | part _ => exact List.append_nil _

theorem broadcasts_append_message (stream : List Sent) (m : Message) :
    broadcasts (stream ++ [.message m]) = broadcasts stream ++ [m] := by
  rw [broadcasts, List.filterMap_append]
  rfl

/-- What a handler has read is honest. -/
theorem honest_handled (clientId : Uuid) (received : Received) (server : Server) (as : List Answer) :
    Honest clientId (.handled (answered clientId (received.message clientId) server) received.isWhole as) := by
  have hgoose : (answered clientId (received.message clientId) server).goose = (received.message clientId).goose := by
    unfold answered
    split <;> rfl
  rw [Honest, messageType_answered, hgoose]
  cases received with
  | whole m => exact ⟨fun _ => rfl, (nomatch ·)⟩
  | broken full => exact ⟨fun _ => rfl, fun _ => rfl⟩
  | nothing => exact ⟨(nomatch ·), fun _ => rfl⟩

/-- Where one handler goes on honestly, all are honest. -/
theorem Common.honest_update (h : Common clientId a b log s) {t : ℕ} {new : Stage} (hnew : Honest (clientId t) new)
    (t' : ℕ) : Honest (clientId t') (Function.update s.stage t new t') := by
  by_cases ht' : t' = t
  · rw [ht', Function.update_self]
    exact hnew
  · rw [Function.update_of_ne ht']
    exact h.honest t'

/-- A client is sent nothing new, or has just come or gone. -/
theorem Common.congr (h : Common clientId a b log s) (hhonest : ∀ t, Honest (clientId t) (s'.stage t))
    (hsent : ∀ id, s'.streams id = [] ∨ (broadcasts (s'.streams id) = broadcasts (s.streams id) ∧
      (s.ready id = true → s'.ready id = true))) : Common clientId a b log s' := by
  refine ⟨hhonest, fun id hid => ?_⟩
  rcases hsent id with hnil | ⟨hsame, hready⟩
  · have hnone : s'.heard a b id = [] := by
      rw [heard, hnil]
      rfl
    exact ⟨hnone ▸ List.nil_suffix, fun _ => hnone⟩
  · obtain ⟨hsuffix, hnone⟩ := h.sent id hid
    rw [heard, hsame]
    refine ⟨hsuffix, fun hr => hnone ?_⟩
    rw [← Bool.not_eq_true] at hr ⊢
    exact fun hr' => hr (hready hr')

/-- A message is sent to all: one that both clients are sent comes to the end of the list. -/
theorem Common.tell (h : Common clientId a b log s) {t : ℕ} {message : Message} {whole : Bool} {fails : Uuid → Bool}
    (hst : s.stage t = .handled message whole []) (hwholly : s.Wholly a b (.tell t fails)) :
    Common clientId a b (if Counted a b message then log ++ [message] else log)
      { server := s.server
        stage := Function.update s.stage t .idle
        streams := s.sendAll (clientId t) message whole fails } := by
  obtain ⟨hnames, hempty⟩ : Honest (clientId t) (.handled message whole []) := hst ▸ h.honest t
  refine ⟨h.honest_update trivial, fun id hid => ?_⟩
  obtain ⟨hsuffix, hnone⟩ := h.sent id hid
  change (broadcasts (s.sendAll (clientId t) message whole fails id)).filter (Counted a b) <:+ _ ∧
    (s.ready id = false → (broadcasts (s.sendAll (clientId t) message whole fails id)).filter (Counted a b) = [])
  by_cases hr : s.ready id = true
  · refine ⟨?_, fun hr' => absurd hr (Bool.eq_false_iff.mp hr')⟩
    by_cases hcounted : Counted a b message = true
    · -- it reaches the client as a whole
      obtain ⟨htype, hothers⟩ : message.messageType ≠ .None ∧
          (message.messageType ≠ .PlayerUpdate ∨ message.goose ≠ a ∧ message.goose ≠ b) := by
        simpa [Counted] using hcounted
      have hreaches : id ≠ clientId t ∨ message.messageType ≠ .PlayerUpdate := by
        by_cases hupdate : message.messageType = .PlayerUpdate
        · obtain ⟨hne, hne'⟩ := hothers.resolve_left (not_not_intro hupdate)
          rw [hnames hupdate] at hne hne'
          rcases hid with rfl | rfl
          · exact .inl hne.symm
          · exact .inl hne'.symm
        · exact .inr hupdate
      have hwrites : ¬ (fails id = true ∨ (id = clientId t ∧ whole = false)) := by
        rintro (hfails | ⟨-, hpart⟩)
        · rcases hid with rfl | rfl
          · exact absurd hfails (Bool.eq_false_iff.mp hwholly.1)
          · exact absurd hfails (Bool.eq_false_iff.mp hwholly.2)
        · exact htype (hempty hpart)
      rw [sendAll, if_pos ⟨hr, hreaches⟩, if_neg hwrites, broadcasts_append_message, List.filter_append,
        List.filter_cons_of_pos hcounted, List.filter_nil, if_pos hcounted]
      exact List.suffix_append_self_iff.mpr hsuffix
    · have hsame : (broadcasts (s.sendAll (clientId t) message whole fails id)).filter (Counted a b) =
          s.heard a b id := by
        rw [sendAll]
        split
        · split
          · rw [broadcasts_append, heard]
            exact fun _ => (nomatch ·)
          · rw [broadcasts_append_message, List.filter_append, List.filter_cons_of_neg hcounted, List.filter_nil,
              List.append_nil, heard]
        · rfl
      rw [hsame, if_neg hcounted]
      exact hsuffix
  · have hr' : s.ready id = false := Bool.eq_false_iff.mpr hr
    have hnil : (broadcasts (s.sendAll (clientId t) message whole fails id)).filter (Counted a b) = [] := by
      rw [sendAll, if_neg fun hs => hr hs.1]
      exact hnone hr'
    exact ⟨hnil ▸ List.nil_suffix, fun _ => hnil⟩

/-- **One event** keeps it, with a longer list at most. -/
theorem Common.step (h : Common clientId a b log s) {event : BroadcastEvent} (hwholly : s.Wholly a b event)
    (hstep : Happens env clientId s event s') : ∃ log', Common clientId a b log' s' := by
  cases hstep with
  | @handle t received message server goesOn db _ _ hmessage _ hrun _ =>
    subst hmessage
    refine ⟨log, h.congr (h.honest_update ?_) fun id => .inr ⟨rfl, fun hr => ?_⟩⟩
    · split
      · exact honest_handled ..
      · exact trivial
    · have hready := ready_handle (clientId t) (received.message (clientId t)) hr
      rwa [hrun] at hready
  | @takeoff t received message order newseed disk _ _ hmessage htype _ =>
    subst hmessage
    refine ⟨log, h.congr (h.honest_update ⟨fun hupdate => ?_, fun hpart => ?_⟩) fun id => .inr ⟨rfl, fun hr => hr⟩⟩
    · rw [htype] at hupdate
      cases hupdate
    · cases received with
      | whole m => cases hpart
      | broken full => rfl
      | nothing => rfl
  | @write t message whole answer rest fails hst =>
    obtain hhonest : Honest (clientId t) (.handled message whole (answer :: rest)) := hst ▸ h.honest t
    refine ⟨log, h.congr (h.honest_update ?_) fun id => .inr ⟨?_, fun hr => hr⟩⟩
    · split
      · exact trivial
      · exact hhonest
    · simp only [writeTo, Function.update_apply]
      split
      · next hid =>
        rw [hid]
        split
        · exact broadcasts_append _ fun _ => (nomatch ·)
        · exact broadcasts_append _ fun _ => (nomatch ·)
      · rfl
  | tell hst => exact ⟨_, h.tell hst hwholly⟩
  | sql hs =>
    refine ⟨log, h.congr h.honest fun id => .inr ⟨rfl, fun hr => ?_⟩⟩
    rw [ready, (clients_sqlStep hs).1]
    exact hr
  | @letIn id' inv _ =>
    refine ⟨log, h.congr h.honest fun id => ?_⟩
    by_cases hid : id = id'
    · exact .inl (by simp [hid])
    · simp [Function.update_of_ne hid, ready, Finmap.lookup_insert_of_ne _ hid]
  | @leave t _ =>
    refine ⟨log, h.congr h.honest fun id => ?_⟩
    by_cases hid : id = clientId t
    · exact .inl (by simp [hid])
    · simp [Function.update_of_ne hid, ready, Finmap.lookup_erase_ne hid]

/-- Rounds of the loop can be finished where writes may succeed. -/
theorem exists_finished {initial : Broadcast → Prop} {ok : Broadcast → BroadcastEvent → Prop}
    (hwrite : ∀ s t, ok s (.write t false)) (htell : ∀ s t, ok s (.tell t fun _ => false)) (t : ℕ) (message : Message)
    (whole : Bool) (as : List Answer) {s : Broadcast} (h : Reached initial ok (Happens env clientId) s)
    (hstage : s.stage = Function.update (fun _ => .idle) t (.handled message whole as)) :
    ∃ s', Reached initial ok (Happens env clientId) s' ∧ (∀ t', s'.stage t' = .idle) ∧
      s'.server = s.server ∧ (∀ sent ∈ s.streams id, sent ∈ s'.streams id) ∧
      (clientId t = id → ∀ answer ∈ as, .answer answer ∈ s'.streams id) := by
  induction as generalizing s with
  | nil =>
    have htold := h.step (BroadcastEvent.tell t fun _ => false) (htell s t) (.tell (by rw [hstage, Function.update_self]))
    refine ⟨_, htold, ?_, rfl, ?_, ?_⟩
    · simp [hstage]
    · intro sent hsent
      change sent ∈ s.sendAll (clientId t) message whole (fun _ => false) id
      rw [sendAll]
      split
      · exact List.mem_append_left _ hsent
      · exact hsent
    · exact fun _ _ hanswer => nomatch hanswer
  | cons answer rest ih =>
    have hwritten := h.step (BroadcastEvent.write t false) (hwrite s t) (.write (by rw [hstage, Function.update_self]))
    obtain ⟨s', hs', hidle, hserver, hkeeps, hrest⟩ := ih hwritten (by rw [hstage]; exact Function.update_idem ..)
    have hsent : ∀ sent, sent ∈ s.writeTo (clientId t) (.answer answer) id → sent ∈ s'.streams id := hkeeps
    refine ⟨s', hs', hidle, hserver, fun sent hold => hsent sent ?_, ?_⟩
    · rw [writeTo, Function.update_apply]
      split
      · next hid => exact List.mem_append_left _ (hid ▸ hold)
      · exact hold
    · rintro rfl a ha
      rcases List.mem_cons.mp ha with rfl | ha
      · exact hsent _ (by simp [writeTo])
      · exact hrest rfl a ha

/-- A handler does a whole round. -/
theorem exists_round {initial : Broadcast → Prop} {ok : Broadcast → BroadcastEvent → Prop}
    (hwrite : ∀ s t, ok s (.write t false)) (htell : ∀ s t, ok s (.tell t fun _ => false)) {s : Broadcast}
    (h : Reached initial ok (Happens env clientId) s) (hidle : ∀ t, s.stage t = .idle) (t : ℕ)
    (received : Received) (hok : ok s (.handle t received)) (hthere : clientId t ∈ s.server.clients)
    (htype : (received.message (clientId t)).messageType ≠ .RequestTakeoff)
    (hgoes : (s.server.handle (clientId t) (received.message (clientId t))).2 = true) :
    ∃ s', Reached initial ok (Happens env clientId) s' ∧ (∀ t', s'.stage t' = .idle) ∧
      s'.server = (s.server.handle (clientId t) (received.message (clientId t))).1 ∧
      (∀ sent ∈ s.streams id, sent ∈ s'.streams id) ∧
      (clientId t = id → ∀ answer ∈ answers s.server.db (received.message (clientId t)).messageType,
        .answer answer ∈ s'.streams id) := by
  have hhandled := h.step (BroadcastEvent.handle t received) hok
    (.handle (hidle t) hthere rfl htype Prod.mk.eta.symm fun _ => rfl)
  refine exists_finished hwrite htell t (answered (clientId t) (received.message (clientId t)) s.server)
    received.isWhole _ hhandled ?_
  rw [if_pos hgoes, funext hidle]

/-- A message that asks for the blocks. -/
def asksForBlocks : Message := { Message.none with messageType := .RequestUdm }

/-- An update of a position. -/
def moves : Message := { Message.none with messageType := .PlayerUpdate }

/-- A message that sets a block. -/
def setsFive : Message := { Message.none with messageType := .BlockSet, info := 5 }

/-- What may happen to two clients, when care is taken of a block for the first. -/
abbrev Tidy (s : Broadcast) (event : BroadcastEvent) : Prop :=
  s.Careful (fun t => (0, .ofNat t)) (0, 0) (.block ⟨0, 0, 0⟩) event ∧ s.Wholly (0, 0) (0, 1) event

/-- A client asks for the blocks and moves, and another one sets a block. -/
theorem exists_told_five : ∃ s : Broadcast,
    Reached (Initial .plain) Tidy (Happens .plain fun t => (0, .ofNat t)) s ∧
      s.Has (0, 0) (.block ⟨0, 0, 0⟩) ∧ (∀ t, s.stage t = .idle) ∧
      s.server.memory (.block ⟨0, 0, 0⟩) = some (.block 5) := by
  set newcomer : Client := ⟨⟨false, STARTINGITEMS, length_STARTINGITEMS⟩, 0, false⟩ with hnewcomer
  have hpending : ∀ {s : Broadcast}, (∀ t, s.stage t = .idle) → ∀ key t, ¬ s.Pending key t := by
    rintro s hidle key t ⟨m, whole, as, hst, -⟩
    rw [hidle t] at hst
    cases hst
  have hwrite : ∀ s t, Tidy s (.write t false) := fun _ _ => ⟨fun _ => rfl, trivial⟩
  have htell : ∀ s t, Tidy s (.tell t fun _ => false) := fun _ _ => ⟨rfl, rfl, rfl⟩
  obtain ⟨sessions, hinitial, -, -, hclients, hqueue, hsql, -⟩ := Sessions.exists_initial
  have hstart : Reached (Initial .plain) Tidy (Happens .plain fun t => (0, .ofNat t))
      ⟨sessions.threads.shared, fun _ => .idle, fun _ => []⟩ :=
    .start ⟨⟨sessions, hinitial, rfl⟩, fun _ => rfl, fun _ => rfl⟩
  -- both are let in
  obtain ⟨s₁, h₁, hidle₁, hclients₁, hquiet₁, hqueue₁⟩ : ∃ s₁ : Broadcast,
      Reached (Initial .plain) Tidy (Happens .plain fun t => (0, .ofNat t)) s₁ ∧ (∀ t, s₁.stage t = .idle) ∧
      s₁.server.clients = ((∅ : HashMap Uuid Client).insert (0, 0) newcomer).insert (0, 1) newcomer ∧
      s₁.server.sqlThread = none ∧ s₁.server.queuedSql = [] := by
    have hfirst := hstart.step (BroadcastEvent.letIn (0, 0)) ⟨trivial, trivial⟩
      (.letIn newcomer.inv (hclients ▸ Finmap.notMem_empty))
    have hsecond := hfirst.step (BroadcastEvent.letIn (0, 1)) ⟨trivial, trivial⟩
      (.letIn newcomer.inv (by simp [hclients, Finmap.notMem_empty]))
    refine ⟨_, hsecond, fun _ => rfl, ?_, hsql, hqueue⟩
    rw [hclients]
  -- one asks for the blocks
  obtain ⟨s₂, h₂, hidle₂, hserver₂, -, hanswers⟩ := exists_round hwrite htell h₁ hidle₁ 0 (.whole asksForBlocks)
    ⟨⟨by decide, fun habout => habout.elim, fun _ => ⟨by simp, fun _ => ⟨by simp [ready, hclients₁, hnewcomer],
      hquiet₁, hpending hidle₁ _, by simp [Executed, outstanding, hqueue₁, hquiet₁]⟩⟩⟩, trivial⟩
    (by simp [hclients₁]) (by decide) rfl
  have hhas₂ := hanswers rfl _ (List.mem_singleton_self _)
  have hclients₂ : s₂.server.clients = s₁.server.clients := by rw [hserver₂]; rfl
  -- and moves
  obtain ⟨s₃, h₃, hidle₃, hserver₃, hkeeps₃, -⟩ := exists_round hwrite htell h₂ hidle₂ 0 (.whole moves)
    ⟨⟨by decide, fun habout => habout.elim, fun _ => ⟨by simp, fun hasks => absurd hasks (by decide)⟩⟩, trivial⟩
    (by simp [hclients₂, hclients₁]) (by decide)
    (by simp [Received.message, moves, handle, handleMessage, runSection, act, hclients₂, hclients₁])
  have hclients₃ : s₃.server.clients = s₁.server.clients.insert (0, 0) { newcomer with
      saveposcounter := 1, readyForPlayerMessages := true } := by
    simp [hserver₃, Received.message, moves, handle, handleMessage, runSection, act, hclients₂, hclients₁, hnewcomer]
  have hready₃ : s₃.ready (0, 0) = true := by simp [ready, hclients₃]
  have hin₃ : ¬ s₃.ComingIn (fun t => (0, .ofNat t)) (0, 0) (.block ⟨0, 0, 0⟩) := by
    rintro (⟨t, m, whole, as, db, -, hst, -⟩ | ⟨-, hnot⟩)
    · rw [hidle₃ t] at hst
      cases hst
    · rw [hready₃] at hnot
      cases hnot
  -- and the other one sets a block
  obtain ⟨s₄, h₄, hidle₄, hserver₄, hkeeps₄, -⟩ := exists_round hwrite htell h₃ hidle₃ 1 (.whole setsFive)
    ⟨⟨by decide, fun _ => ⟨hpending hidle₃ _, hin₃⟩, fun hid => absurd hid (by decide)⟩, trivial⟩
    (by simp [hclients₃, hclients₁]) (by decide) rfl
  have hsets : s₄.server.csys = s₃.server.csys.setBlock ⟨0, 0, 0⟩ 5 true := by rw [hserver₄]; rfl
  refine ⟨s₄, h₄, ⟨_, hkeeps₄ _ (hkeeps₃ _ hhas₂)⟩, hidle₄, ?_⟩
  simp [memory, hsets, ChunkSystem.setBlock, ChunkSystem.setBlockNoSound]

/-- The one that asked has been told of the block. -/
theorem told_current_five : ∃ s : Broadcast,
    Reached (Initial .plain) (Careful (fun t => (0, .ofNat t)) (0, 0) (.block ⟨0, 0, 0⟩))
        (Happens .plain fun t => (0, .ofNat t)) s ∧
      (told s.server.currseed (.block ⟨0, 0, 0⟩) (s.streams (0, 0))).or (Key.fresh (.block ⟨0, 0, 0⟩)) =
        some (.block 5) := by
  obtain ⟨s, hs, hhas, hidle, hfive⟩ := exists_told_five
  have hrun : Reached (Initial .plain) (Careful (fun t => (0, .ofNat t)) (0, 0) (.block ⟨0, 0, 0⟩))
      (Happens .plain fun t => (0, .ofNat t)) s :=
    hs.mono fun _ _ hok => hok.1
  refine ⟨s, hrun, (told_current .plain _ (0, 0) (.block ⟨0, 0, 0⟩) (fun _ => (nomatch ·)) hrun hhas ?_).trans ?_⟩
  · rintro t ⟨m, whole, as, hst, -⟩
    rw [hidle t] at hst
    cases hst
  · rw [hfive, Option.some_or]

end Broadcast

end Distgard
