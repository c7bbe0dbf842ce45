import Distgard.ChunkSystem
import Distgard.Inventory
import Distgard.Lib.Monitor
import Distgard.Lib.Single
import Mathlib.Logic.Relation

/-!
# The server and its database

The server keeps blocks, chests and the inventories of its clients in memory, and the same in a
database. A thread for each client handles its messages: it changes what is in memory, and
pushes a statement onto a queue. One more thread takes the statements from the queue, oldest
first, and executes them. What is in memory is behind locks: one for all blocks, one for the
chests and one for the clients. A handler holds its lock from before it stores something until
after it has pushed the statement.

## The model

A handler is a list of actions under a lock, each of which touches memory or the queue once;
between any two of them the other threads run. Chests and clients have a lock each, which
allows more runs than the locks of the source do. A panic ends the thread. A statement that
fails is tried again. `written` remembers which keys messages have stored to.

## What is proved

* `database_catchesUp` — when the queue is empty and no statement is being executed, the
  database has what is in memory, at every key that was stored to and whose lock is free.
* `exists_caughtUp` — the queue can always be emptied.
* `database_isBehind` — a key whose lock is held can be stored to, and its statement not yet
  pushed.
-/

namespace Distgard

open Lib

/-- The identity of a client. -/
abbrev Uuid := UInt64 × UInt64

/-- The kinds of messages. -/
inductive MessageType where
  | None | RequestUdm | RequestSeed | RequestPt | Pt | Udm | Seed | PlayerUpdate | BlockSet | RequestTakeoff | YourId
  | MobUpdate | NewMob | WhatsThatMob | ShutUpMobMsgs | MobUpdateBatch | TimeUpdate | TellYouMyID | MultiBlockSet
  | ChestReg | ReqChestReg | ChestInvUpdate | Disconnect
  deriving DecidableEq

/-- A message, less what mobs are told by. -/
@[ext] structure Message where
  /-- Its kind. -/
  messageType : MessageType
  /-- East, or the item that is moved to the mouse. -/
  x : Single
  /-- Up, or how many of it. -/
  y : Single
  /-- South, or whether the mouse's slot is replaced. -/
  z : Single
  /-- A rotation, or the item that is put into a slot. -/
  rot : Single
  /-- A block, or a slot. -/
  info : UInt32
  /-- A second block, or the kind of slot. -/
  info2 : UInt32
  /-- How many are put into a slot. -/
  infof : Single
  /-- The client it comes from. -/
  goose : Uuid
  /-- A second cell, or the open chest. -/
  otherpos : IVec3
  /-- Whether the server moves what was in the slot to the mouse. -/
  bo : Bool
  deriving DecidableEq

namespace Message

/-- The cell that a message names. -/
def spot (message : Message) : IVec3 := ⟨message.x.asI32, message.y.asI32, message.z.asI32⟩

/-- The index of a slot: the word with a sign, extended to the size of an address. -/
def slotIndex (message : Message) : ℕ :=
  if message.info.toNat < 2 ^ 31 then message.info.toNat else message.info.toNat + (2 ^ 64 - 2 ^ 32)

/-- What a slot is to hold. -/
def contents (message : Message) : Slot := (message.rot.asU32, message.infof.asU32)

end Message

theorem length_emptySlots : (List.replicate (ROWLENGTH * 4) ((0, 0) : Slot)).length = ROWLENGTH * 4 :=
  List.length_replicate

/-- A chest as it is when the server first hears of it. -/
def ChestInventory.untouched : ChestInventory where
  dirty := false
  inv := List.replicate (ROWLENGTH * 4) (0, 0)
  length_inv := length_emptySlots

theorem ChestInventory.length_set_inv (slot : ℕ) (contents : Slot) (chest : ChestInventory) :
    (chest.inv.set slot contents).length = ROWLENGTH * 4 := by
  rw [List.length_set, chest.length_inv]

/-- Put something into a slot of a chest. -/
def ChestInventory.replaceSlot (slot : ℕ) (contents : Slot) (chest : ChestInventory) : ChestInventory where
  dirty := chest.dirty
  inv := chest.inv.set slot contents
  length_inv := chest.length_set_inv slot contents

theorem Inventory.length_set_inv (slot : ℕ) (contents : Slot) (inv : Inventory) :
    (inv.inv.set slot contents).length = ROWLENGTH := by
  rw [List.length_set, inv.length_inv]

/-- Put something into a slot of an inventory. -/
def Inventory.replaceSlot (slot : ℕ) (contents : Slot) (inv : Inventory) : Inventory where
  dirty := inv.dirty
  inv := inv.inv.set slot contents
  length_inv := inv.length_set_inv slot contents

/-- What the server knows of a client. -/
structure Client where
  /-- The inventory. -/
  inv : Inventory
  /-- How many updates have come since the position was saved. -/
  saveposcounter : ℕ
  /-- Whether the client is sent messages. -/
  readyForPlayerMessages : Bool

/-- Where a player is, and where the player looks. -/
structure PlayerPosition where
  /-- The position. -/
  pos : Single × Single × Single
  /-- Up or down. -/
  pitch : Single
  /-- Around. -/
  yaw : Single

/-- A statement for the database. -/
inductive QueuedSqlType where
  /-- The user has set a block. -/
  | UserDataMap (seed : UInt32) (spot : IVec3) (block : UInt32)
  /-- A chest holds something else. -/
  | ChestInventoryUpdate (key : IVec3) (inv : List Slot) (seed : UInt32)
  /-- A client's inventory holds something else. -/
  | InventoryInventoryUpdate (key : Uuid) (inv : List Slot)
  /-- A player has moved. -/
  | PlayerPositionUpdate (key : Uuid) (position : PlayerPosition)
  /-- Nothing. -/
  | None

/-- The tables of the database; one that does not exist is empty. -/
structure Database where
  /-- The blocks, by seed. -/
  userdatamap : UInt32 → HashMap IVec3 UInt32
  /-- The chests, by seed: whether they are dirty, and what they hold. -/
  chestRegistry : UInt32 → HashMap IVec3 (Bool × List Slot)
  /-- The inventories. -/
  invs : HashMap Uuid (List Slot)
  /-- The positions. -/
  poses : HashMap Uuid PlayerPosition

/-- Execute a statement. -/
def handlesql (sql : QueuedSqlType) (db : Database) : Database :=
  match sql with
  | .UserDataMap seed spot block =>
    { db with userdatamap := Function.update db.userdatamap seed ((db.userdatamap seed).insert spot block) }
  | .ChestInventoryUpdate key inv seed =>
    { db with chestRegistry := Function.update db.chestRegistry seed ((db.chestRegistry seed).insert key (false, inv)) }
  | .InventoryInventoryUpdate key inv => { db with invs := db.invs.insert key inv }
  | .PlayerPositionUpdate key position => { db with poses := db.poses.insert key position }
  | .None => db

/-- What is kept both in memory and in the database. -/
inductive Key where
  /-- The block the user has set in a cell. -/
  | block (spot : IVec3)
  /-- What a chest holds. -/
  | chest (pos : IVec3)
  /-- What a client's inventory holds. -/
  | inv (id : Uuid)
  deriving DecidableEq

/-- What is kept at a key. -/
inductive Value where
  /-- A block. -/
  | block (id : UInt32)
  /-- Slots. -/
  | slots (inv : List Slot)
  deriving DecidableEq

/-- What the threads of the server share. -/
structure Server where
  /-- The blocks. -/
  csys : ChunkSystem
  /-- The chests. -/
  chestReg : HashMap IVec3 ChestInventory
  /-- The clients. -/
  clients : HashMap Uuid Client
  /-- The current seed. -/
  currseed : UInt32
  /-- The statements that have been pushed, oldest first. -/
  queuedSql : List QueuedSqlType
  /-- The statement that is being executed, and how often it has been tried again. -/
  sqlThread : Option (QueuedSqlType × ℕ)
  /-- The database. -/
  db : Database
  /-- The keys that messages have stored to. -/
  written : List Key

/-- The locks. -/
inductive Lock where
  /-- That of the chunk system. -/
  | csys
  /-- That of a chest. -/
  | chest (pos : IVec3)
  /-- That of a client. -/
  | client (id : Uuid)
  deriving DecidableEq

/-- What a handler does under its lock. -/
inductive Action where
  /-- Set a block. -/
  | setBlock (spot : IVec3) (block : UInt32)
  /-- Push the statement for a block. -/
  | queueBlock (spot : IVec3) (block : UInt32)
  /-- Look a chest up, and create it if there is none. -/
  | openChest (pos : IVec3)
  /-- Store to a slot of a chest. -/
  | setChestSlot (pos : IVec3) (slot : ℕ) (contents : Slot)
  /-- Push the statement for a chest. -/
  | queueChest (pos : IVec3)
  /-- Store to a slot of the client's inventory. -/
  | setInvSlot (id : Uuid) (slot : ℕ) (contents : Slot)
  /-- Push the statement for the inventory. -/
  | queueInv (id : Uuid)
  /-- Note an update of the client's position, and push a statement for some of them. -/
  | updatePlayer (id : Uuid) (position : PlayerPosition)

/-- What a handler does for a message of a client, if it is one that stores something; to take off is an event of
its own (`Server.takeoff`). -/
def handleMessage (clientId : Uuid) (message : Message) : Option (Lock × List Action) :=
  match message.messageType with
  | .ChestInvUpdate =>
    match message.info2 with
    | 0 => some (.chest message.otherpos, [.openChest message.otherpos,
        .setChestSlot message.otherpos message.slotIndex message.contents, .queueChest message.otherpos])
    | 1 => some (.client clientId, [.setInvSlot clientId message.slotIndex message.contents, .queueInv clientId])
    | _ => none
  | .PlayerUpdate => some (.client clientId,
      [.updatePlayer clientId ⟨(message.x, message.y, message.z), message.infof, .ofU32 message.info2⟩])
  | .BlockSet => some (.csys, [.setBlock message.spot message.info, .queueBlock message.spot message.info])
  | .MultiBlockSet => some (.csys, [.setBlock message.spot message.info, .setBlock message.otherpos message.info2,
      .queueBlock message.spot message.info, .queueBlock message.otherpos message.info2])
  | _ => none

namespace Server

/-- Push a statement onto the queue. -/
def push (sql : QueuedSqlType) (s : Server) : Server := { s with queuedSql := s.queuedSql ++ [sql] }

/-- What an action does; it panics if the slot is out of range, or if the client is gone when
its inventory is needed. -/
def act : Action → Server → Option Server
  | .setBlock spot block, s =>
    some { s with csys := s.csys.setBlock spot block true, written := .block spot :: s.written }
  | .queueBlock spot block, s => some (s.push (.UserDataMap s.currseed spot block))
  | .openChest pos, s =>
    some { s with chestReg := if pos ∈ s.chestReg then s.chestReg else s.chestReg.insert pos .untouched }
  | .setChestSlot pos slot contents, s =>
    match s.chestReg.lookup pos with
    | some chest =>
      if slot < ROWLENGTH * 4 then
        some { s with
          chestReg := s.chestReg.insert pos (chest.replaceSlot slot contents)
          written := .chest pos :: s.written }
      else none
    | none => none
  | .queueChest pos, s =>
    (s.chestReg.lookup pos).map fun chest => s.push (.ChestInventoryUpdate pos chest.inv s.currseed)
  | .setInvSlot id slot contents, s =>
    match s.clients.lookup id with
    | some cli =>
      if slot < ROWLENGTH then
        some { s with
          clients := s.clients.insert id { cli with inv := cli.inv.replaceSlot slot contents }
          written := .inv id :: s.written }
      else none
    | none => some s
  | .queueInv id, s => (s.clients.lookup id).map fun cli => s.push (.InventoryInventoryUpdate id cli.inv.inv)
  | .updatePlayer id position, s =>
    (s.clients.lookup id).map fun cli =>
      if 10 < cli.saveposcounter then
        { s with
          clients := s.clients.insert id { cli with saveposcounter := 0, readyForPlayerMessages := true } }.push
            (.PlayerPositionUpdate id position)
      else
        { s with
          clients := s.clients.insert id
            { cli with saveposcounter := cli.saveposcounter + 1, readyForPlayerMessages := true } }

/-- What the thread for the database does. -/
inductive SqlStep : Server → Server → Prop
  /-- It takes the oldest statement. -/
  | pop {s : Server} {sql : QueuedSqlType} {rest : List QueuedSqlType} : s.sqlThread = none → s.queuedSql = sql :: rest →
      SqlStep s { s with queuedSql := rest, sqlThread := some (sql, 0) }
  /-- The statement fails, and will be tried again. -/
  | retry {s : Server} {sql : QueuedSqlType} {retries : ℕ} : s.sqlThread = some (sql, retries) → retries < 30 →
      SqlStep s { s with sqlThread := some (sql, retries + 1) }
  /-- It succeeds. -/
  | done {s : Server} {sql : QueuedSqlType} {retries : ℕ} : s.sqlThread = some (sql, retries) →
      SqlStep s { s with sqlThread := none, db := handlesql sql s.db }

/-- The server, and the handlers that are running. -/
abbrev Threads := Monitor Server Action Lock ℕ

/-- No handler is running, and no message has stored anything. -/
def Start (m : Threads) : Prop := (∀ t, m.running t = none) ∧ m.shared.written = []

/-- The states that are reached, where each thread handles messages of a client. -/
def Reaches (clientId : ℕ → Uuid) : Threads → Prop :=
  Reached Start (fun _ _ => True) fun m (_ : Unit) m' =>
    Monitor.Step act (fun t l as => ∃ message, handleMessage (clientId t) message = some (l, as)) SqlStep m m'

/-- What is in memory. -/
def memory (s : Server) : Key → Option Value
  | .block spot => (s.csys.userdatamap.lookup spot).map .block
  | .chest pos => (s.chestReg.lookup pos).map fun chest => .slots chest.inv
  | .inv id => (s.clients.lookup id).map fun cli => .slots cli.inv.inv

end Server

/-- What is in the tables of a seed. -/
def Database.row (seed : UInt32) (db : Database) : Key → Option Value
  | .block spot => ((db.userdatamap seed).lookup spot).map .block
  | .chest pos => ((db.chestRegistry seed).lookup pos).map fun chest => .slots chest.2
  | .inv id => (db.invs.lookup id).map .slots

/-- The lock that guards a key. -/
def Key.lock : Key → Lock
  | .block _ => .csys
  | .chest pos => .chest pos
  | .inv id => .client id

/-- The lock under which an action is done. -/
def Action.lock : Action → Lock
  | .setBlock .. | .queueBlock .. => .csys
  | .openChest pos | .setChestSlot pos .. | .queueChest pos => .chest pos
  | .setInvSlot id .. | .queueInv id | .updatePlayer id _ => .client id

/-! ### What can be seen of a key -/

/-- What can be seen of a key. -/
@[ext] structure Seen where
  /-- A message has stored to it. -/
  written : Prop
  /-- What is in memory. -/
  memory : Option Value
  /-- What the database will have when all statements pushed so far are executed. -/
  behind : Option Value

/-- Once a message has stored to a key, the statements pushed agree with memory. -/
def Seen.Settled (w : Seen) : Prop := w.written → w.behind = w.memory ∧ w.memory.isSome = true

/-- Put something into a slot, of those there are. -/
def Value.setSlot (slot : ℕ) (contents : Slot) : Value → Value
  | .slots inv => .slots (inv.set slot contents)
  | .block id => .block id

/-- What an action does to what can be seen of a key of its lock. -/
def Seen.after (key : Key) : Action → Seen → Option Seen
  | .setBlock spot block, w => some (if key = .block spot then ⟨True, some (.block block), w.behind⟩ else w)
  | .queueBlock spot block, w => some (if key = .block spot then { w with behind := some (.block block) } else w)
  | .openChest _, w => some { w with memory := some (w.memory.getD (.slots ChestInventory.untouched.inv)) }
  | .setChestSlot _ slot contents, w => w.memory.bind fun v =>
    if slot < ROWLENGTH * 4 then some ⟨True, some (v.setSlot slot contents), w.behind⟩ else none
  | .queueChest _, w => w.memory.map fun v => { w with behind := some v }
  | .setInvSlot _ slot contents, w =>
    match w.memory with
    | some v => if slot < ROWLENGTH then some ⟨True, some (v.setSlot slot contents), w.behind⟩ else none
    | none => some w
  | .queueInv _, w => w.memory.map fun v => { w with behind := some v }
  | .updatePlayer _ _, w => w.memory.map fun _ => w

/-- The key a statement writes in the tables of a seed, and what it writes there. -/
def QueuedSqlType.writes (seed : UInt32) : QueuedSqlType → Option (Key × Value)
  | .UserDataMap seed' spot block => if seed' = seed then some (.block spot, .block block) else none
  | .ChestInventoryUpdate key inv seed' => if seed' = seed then some (.chest key, .slots inv) else none
  | .InventoryInventoryUpdate key inv => some (.inv key, .slots inv)
  | .PlayerPositionUpdate .. => none
  | .None => none

/-- A statement changes the row it writes, and no other. -/
theorem row_handlesql (seed : UInt32) (sql : QueuedSqlType) (db : Database) (key : Key) :
    (handlesql sql db).row seed key =
      match sql.writes seed with
      | some (key', v) => if key = key' then some v else db.row seed key
      | none => db.row seed key := by
  cases sql with
  | UserDataMap seed' spot block =>
    by_cases hseed : seed' = seed
    · subst hseed
      cases key with
      | block spot' =>
        by_cases hspot : spot' = spot <;>
          simp [handlesql, Database.row, QueuedSqlType.writes, HashMap.lookup_insert', hspot]
      | chest pos => simp [handlesql, Database.row, QueuedSqlType.writes]
      | inv id => simp [handlesql, Database.row, QueuedSqlType.writes]
    · cases key <;>
        simp [handlesql, Database.row, QueuedSqlType.writes, hseed, Function.update_of_ne (Ne.symm hseed)]
  | ChestInventoryUpdate pos inv seed' =>
    by_cases hseed : seed' = seed
    · subst hseed
      cases key with
      | block spot' => simp [handlesql, Database.row, QueuedSqlType.writes]
      | chest pos' =>
        by_cases hpos : pos' = pos <;>
          simp [handlesql, Database.row, QueuedSqlType.writes, HashMap.lookup_insert', hpos]
      | inv id => simp [handlesql, Database.row, QueuedSqlType.writes]
    · cases key <;>
        simp [handlesql, Database.row, QueuedSqlType.writes, hseed, Function.update_of_ne (Ne.symm hseed)]
  | InventoryInventoryUpdate id inv =>
    cases key with
    | block spot' => simp [handlesql, Database.row, QueuedSqlType.writes]
    | chest pos => simp [handlesql, Database.row, QueuedSqlType.writes]
    | inv id' =>
      by_cases hid : id' = id <;>
        simp [handlesql, Database.row, QueuedSqlType.writes, HashMap.lookup_insert', hid]
  | PlayerPositionUpdate id position => cases key <;> rfl
  | None => cases key <;> rfl

namespace Server

/-- The statements that have not been executed, oldest first. -/
def outstanding (s : Server) : List QueuedSqlType := (s.sqlThread.map Prod.fst).toList ++ s.queuedSql

/-- The database when all of them are executed. -/
def caughtUp (s : Server) : Database := s.outstanding.foldl (fun db sql => handlesql sql db) s.db

/-- What can be seen of a key. -/
def view (key : Key) (s : Server) : Seen := ⟨key ∈ s.written, s.memory key, s.caughtUp.row s.currseed key⟩

@[simp] theorem caughtUp_push (sql : QueuedSqlType) (s : Server) : (s.push sql).caughtUp = handlesql sql s.caughtUp := by
  simp [caughtUp, outstanding, push]

@[simp] theorem memory_push (sql : QueuedSqlType) (s : Server) (key : Key) : (s.push sql).memory key = s.memory key := by
  cases key <;> rfl

/-- Pushing a statement changes what the database will have. -/
theorem view_push (sql : QueuedSqlType) (s : Server) (key : Key) :
    view key (s.push sql) = { view key s with
      behind := match sql.writes s.currseed with
        | some (key', v) => if key = key' then some v else (view key s).behind
        | none => (view key s).behind } := by
  simp only [view, memory_push, caughtUp_push]
  exact congrArg _ (row_handlesql ..)

/-- The thread for the database changes nothing that can be seen of a key. -/
theorem view_sqlStep {s s' : Server} (h : SqlStep s s') (key : Key) : view key s' = view key s := by
  have hmemory : s'.memory key = s.memory key := by cases h <;> cases key <;> rfl
  have hcaught : s'.caughtUp = s.caughtUp := by
    cases h with
    | pop hidle hqueue => simp [caughtUp, outstanding, hidle, hqueue]
    | retry hsql _ => simp [caughtUp, outstanding, hsql]
    | done hsql => simp [caughtUp, outstanding, hsql]
  have hwritten : s'.written = s.written := by cases h <;> rfl
  have hseed : s'.currseed = s.currseed := by cases h <;> rfl
  rw [view, view, hmemory, hcaught, hwritten, hseed]

/-! ### What an action does to a key -/

/-- What storing a block does to a key. -/
theorem view_setBlock (spot : IVec3) (block : UInt32) (s : Server) (key : Key) :
    view key { s with csys := s.csys.setBlock spot block true, written := .block spot :: s.written } =
      if key = .block spot then ⟨True, some (.block block), (view key s).behind⟩ else view key s := by
  have hmap : (s.csys.setBlock spot block true).userdatamap = s.csys.userdatamap.insert spot block := rfl
  split
  · next hkey =>
    subst hkey
    simp [view, memory, hmap, caughtUp, outstanding]
  · next hkey =>
    cases key with
    | block spot' =>
      have hne : spot' ≠ spot := fun h => hkey (h ▸ rfl)
      simp [view, memory, hmap, caughtUp, outstanding, hne]
    | chest pos => simp [view, memory, caughtUp, outstanding]
    | inv id => simp [view, memory, caughtUp, outstanding]

/-- What a change of a chest does to a key. -/
theorem view_chest (pos : IVec3) (chest : ChestInventory) (written : List Key) (s : Server) (key : Key) :
    view key { s with chestReg := s.chestReg.insert pos chest, written := written } =
      if key = .chest pos then ⟨key ∈ written, some (.slots chest.inv), (view key s).behind⟩
      else { view key s with written := key ∈ written } := by
  split
  · next hkey =>
    subst hkey
    simp [view, memory, caughtUp, outstanding]
  · next hkey =>
    cases key with
    | chest pos' =>
      have hne : pos' ≠ pos := fun h => hkey (h ▸ rfl)
      simp [view, memory, caughtUp, outstanding, hne]
    | block spot => simp [view, memory, caughtUp, outstanding]
    | inv id => simp [view, memory, caughtUp, outstanding]

/-- What a change of a client does to a key. -/
theorem view_client (id : Uuid) (cli : Client) (written : List Key) (s : Server) (key : Key) :
    view key { s with clients := s.clients.insert id cli, written := written } =
      if key = .inv id then ⟨key ∈ written, some (.slots cli.inv.inv), (view key s).behind⟩
      else { view key s with written := key ∈ written } := by
  split
  · next hkey =>
    subst hkey
    simp [view, memory, caughtUp, outstanding]
  · next hkey =>
    cases key with
    | inv id' =>
      have hne : id' ≠ id := fun h => hkey (h ▸ rfl)
      simp [view, memory, caughtUp, outstanding, hne]
    | block spot => simp [view, memory, caughtUp, outstanding]
    | chest pos => simp [view, memory, caughtUp, outstanding]

theorem eq_chest_of_lock {pos : IVec3} {key : Key} (h : Lock.chest pos = key.lock) : key = .chest pos := by
  cases key <;> simp_all [Key.lock]

theorem eq_inv_of_lock {id : Uuid} {key : Key} (h : Lock.client id = key.lock) : key = .inv id := by
  cases key <;> simp_all [Key.lock]

theorem memory_view_chest (pos : IVec3) (s : Server) :
    (view (.chest pos) s).memory = (s.chestReg.lookup pos).map fun chest => .slots chest.inv := rfl

theorem memory_view_inv (id : Uuid) (s : Server) :
    (view (.inv id) s).memory = (s.clients.lookup id).map fun cli => .slots cli.inv.inv := rfl

/-- **An action under the lock of a key** does to it what can be told from what is seen of it. -/
theorem view_act {key : Key} {a : Action} {s : Server} (h : a.lock = key.lock) :
    (act a s).map (view key) = Seen.after key a (view key s) := by
  cases a with
  | setBlock spot block => exact congrArg some (view_setBlock spot block s key)
  | queueBlock spot block =>
    rw [act, Option.map_some, view_push, Seen.after]
    by_cases hkey : key = .block spot <;> simp [QueuedSqlType.writes, hkey]
  | openChest pos =>
    obtain rfl := eq_chest_of_lock h
    rw [act, Option.map_some, Seen.after, memory_view_chest]
    by_cases hpos : pos ∈ s.chestReg
    · obtain ⟨chest, hchest⟩ := Finmap.mem_iff.mp hpos
      rw [if_pos hpos, hchest]
      simp [view, memory, hchest]
    · have hview := view_chest pos .untouched s.written s (.chest pos)
      rw [if_neg hpos, Finmap.lookup_eq_none.mpr hpos, hview, if_pos rfl]
      rfl
  | setChestSlot pos slot contents =>
    obtain rfl := eq_chest_of_lock h
    rw [act, Seen.after, memory_view_chest]
    cases hchest : s.chestReg.lookup pos with
    | none => rfl
    | some chest => by_cases hslot : slot < ROWLENGTH * 4 <;>
        simp [hslot, view_chest, Value.setSlot, ChestInventory.replaceSlot]
  | queueChest pos =>
    obtain rfl := eq_chest_of_lock h
    rw [act, Seen.after, memory_view_chest]
    cases hchest : s.chestReg.lookup pos with
    | none => rfl
    | some chest => simp [view_push, QueuedSqlType.writes, memory_view_chest, hchest]
  | setInvSlot id slot contents =>
    obtain rfl := eq_inv_of_lock h
    rw [act, Seen.after, memory_view_inv]
    cases hcli : s.clients.lookup id with
    | none => rfl
    | some cli => by_cases hslot : slot < ROWLENGTH <;>
        simp [hslot, view_client, Value.setSlot, Inventory.replaceSlot]
  | queueInv id =>
    obtain rfl := eq_inv_of_lock h
    rw [act, Seen.after, memory_view_inv]
    cases hcli : s.clients.lookup id with
    | none => rfl
    | some cli => simp [view_push, QueuedSqlType.writes, memory_view_inv, hcli]
  | updatePlayer id position =>
    obtain rfl := eq_inv_of_lock h
    rw [act, Seen.after, memory_view_inv]
    cases hcli : s.clients.lookup id with
    | none => rfl
    | some cli =>
      have hsame : ∀ cli' : Client, cli'.inv = cli.inv →
          view (.inv id) { s with clients := s.clients.insert id cli' } = view (.inv id) s := by
        intro cli' hinv
        have hmemory : (view (.inv id) s).memory = some (.slots cli.inv.inv) := by
          rw [memory_view_inv, hcli, Option.map_some]
        have hview := view_client id cli' s.written s (.inv id)
        rw [if_pos rfl, hinv, ← hmemory] at hview
        exact hview
      by_cases hcount : 10 < cli.saveposcounter <;>
        simp [hcount, view_push, QueuedSqlType.writes, hsame]

/-- A statement that writes another key changes nothing that can be seen of this one. -/
theorem view_push_of_ne {sql : QueuedSqlType} {s : Server} {key : Key}
    (h : ∀ key' v, sql.writes s.currseed = some (key', v) → key ≠ key') : view key (s.push sql) = view key s := by
  rw [view_push]
  cases hwrites : sql.writes s.currseed with
  | none => rfl
  | some kv => simp [h kv.1 kv.2 hwrites]

/-- **An action under another lock** leaves a key alone. -/
theorem view_act_of_ne {key : Key} {a : Action} {s s' : Server} (h : a.lock ≠ key.lock) (hact : act a s = some s') :
    view key s' = view key s := by
  have hblock : ∀ {spot}, a.lock = .csys → key ≠ .block spot := by
    rintro spot ha rfl
    exact h ha
  have hchest : ∀ {pos}, a.lock = .chest pos → key ≠ .chest pos := by
    rintro pos ha rfl
    exact h ha
  have hclient : ∀ {id}, a.lock = .client id → key ≠ .inv id := by
    rintro id ha rfl
    exact h ha
  cases a with
  | setBlock spot block =>
    cases hact
    rw [view_setBlock, if_neg (hblock rfl)]
  | queueBlock spot block =>
    cases hact
    refine view_push_of_ne fun key' v hwrites => ?_
    cases (Option.some.inj ((if_pos rfl).symm.trans hwrites))
    exact hblock rfl
  | openChest pos =>
    cases hact
    split
    · rfl
    · exact (view_chest pos .untouched s.written s key).trans (if_neg (hchest rfl))
  | setChestSlot pos slot contents =>
    rw [act] at hact
    split at hact
    · split at hact
      · cases hact
        rw [view_chest, if_neg (hchest rfl)]
        simp [view, hchest rfl]
      · cases hact
    · cases hact
  | queueChest pos =>
    obtain ⟨chest, -, rfl⟩ := Option.map_eq_some_iff.mp hact
    refine view_push_of_ne fun key' v hwrites => ?_
    cases (Option.some.inj ((if_pos rfl).symm.trans hwrites))
    exact hchest rfl
  | setInvSlot id slot contents =>
    rw [act] at hact
    split at hact
    · split at hact
      · cases hact
        rw [view_client, if_neg (hclient rfl)]
        simp [view, hclient rfl]
      · cases hact
    · cases hact
      rfl
  | queueInv id =>
    obtain ⟨cli, -, rfl⟩ := Option.map_eq_some_iff.mp hact
    refine view_push_of_ne fun key' v hwrites => ?_
    cases hwrites
    exact hclient rfl
  | updatePlayer id position =>
    obtain ⟨cli, -, rfl⟩ := Option.map_eq_some_iff.mp hact
    split
    · rw [view_push_of_ne (fun key' v hwrites => by cases hwrites)]
      exact (view_client id _ s.written s key).trans (if_neg (hclient rfl))
    · exact (view_client id _ s.written s key).trans (if_neg (hclient rfl))

/-- The actions for a message are under one lock. -/
theorem lock_of_handleMessage {clientId : Uuid} {message : Message} {l : Lock} {as : List Action}
    (h : handleMessage clientId message = some (l, as)) : ∀ a ∈ as, a.lock = l := by
  unfold handleMessage at h
  split at h
  · split at h <;> cases h <;> simp [Action.lock]
  · cases h
    simp [Action.lock]
  · cases h
    simp [Action.lock]
  · cases h
    simp [Action.lock]
  · cases h

/-- **What a handler stores it also pushes**: it leaves a key settled. -/
theorem settled_of_handleMessage {clientId : Uuid} {message : Message} {key : Key} {as : List Action} {w : Seen}
    (h : handleMessage clientId message = some (key.lock, as)) (hw : w.Settled) :
    (Monitor.alone (Seen.after key) as w).Settled := by
  unfold handleMessage at h
  split at h
  · split at h
    · obtain ⟨hkey, rfl⟩ : Lock.chest message.otherpos = key.lock ∧ _ := by simpa using h
      have hmemory : ({ w with memory := some (w.memory.getD (.slots ChestInventory.untouched.inv)) } : Seen).Settled := by
        intro hwritten
        obtain ⟨hbehind, hsome⟩ := hw hwritten
        obtain ⟨v, hv⟩ := Option.isSome_iff_exists.mp hsome
        simp [hbehind, hv]
      by_cases hslot : message.slotIndex < ROWLENGTH * 4
      · simp [Monitor.alone, Seen.after, hslot, Seen.Settled]
      · simpa [Monitor.alone, Seen.after, hslot] using hmemory
    · obtain ⟨hkey, rfl⟩ : Lock.client clientId = key.lock ∧ _ := by simpa using h
      cases hmem : w.memory with
      | none => simpa [Monitor.alone, Seen.after, hmem] using hw
      | some v =>
        by_cases hslot : message.slotIndex < ROWLENGTH
        · simp [Monitor.alone, Seen.after, hmem, hslot, Seen.Settled]
        · simpa [Monitor.alone, Seen.after, hmem, hslot] using hw
    · cases h
  · obtain ⟨hkey, rfl⟩ : Lock.client clientId = key.lock ∧ _ := by simpa using h
    cases hmem : w.memory <;> simpa [Monitor.alone, Seen.after, hmem] using hw
  · obtain ⟨hkey, rfl⟩ : Lock.csys = key.lock ∧ _ := by simpa using h
    by_cases hspot : key = .block message.spot
    · simp [Monitor.alone, Seen.after, hspot, Seen.Settled]
    · simpa [Monitor.alone, Seen.after, hspot] using hw
  · obtain ⟨hkey, rfl⟩ : Lock.csys = key.lock ∧ _ := by simpa using h
    by_cases hspot₂ : key = .block message.otherpos
    · by_cases hsame : message.otherpos = message.spot <;>
        simp [Monitor.alone, Seen.after, hspot₂, hsame, Seen.Settled]
    · by_cases hspot : key = .block message.spot
      · subst hspot
        simp [Monitor.alone, Seen.after, hspot₂, Seen.Settled]
      · simpa [Monitor.alone, Seen.after, hspot, hspot₂] using hw
  · cases h

/-- Locks and keys. -/
theorem guards (clientId : ℕ → Uuid) :
    Monitor.Guards act (fun t l as => ∃ message, handleMessage (clientId t) message = some (l, as)) SqlStep Key.lock view
      (fun l a => a.lock = l) Seen.after (fun _ => Seen.Settled) where
  acts h := view_act h
  frame h hne hact := view_act_of_ne (fun heq => hne (heq.symm.trans h)) hact
  owns h := view_sqlStep h _
  sections := fun ⟨_, h⟩ => lock_of_handleMessage h
  keeps := fun ⟨_, h⟩ hw => settled_of_handleMessage h hw

/-- **The database catches up**: when the queue is empty and no statement is being executed, it has
what is in memory, at every key that was stored to and whose lock is free. -/
theorem database_catchesUp (clientId : ℕ → Uuid) {m : Threads} (h : Reaches clientId m)
    (hqueue : m.shared.queuedSql = []) (hidle : m.shared.sqlThread = none) (key : Key) (hkey : key ∈ m.shared.written)
    (hfree : ¬ m.Held key.lock) :
    m.shared.db.row m.shared.currseed key = m.shared.memory key ∧ (m.shared.memory key).isSome = true := by
  have hsettled : (view key m.shared).Settled := Monitor.settled (guards clientId)
    (fun m hm => ⟨hm.1, fun key hkey => by simp [view, hm.2] at hkey⟩) h hfree
  have hdb : m.shared.caughtUp = m.shared.db := by simp [caughtUp, outstanding, hqueue, hidle]
  have hrow := hsettled hkey
  rw [view, hdb] at hrow
  exact hrow

/-- When the thread for the database is idle, it can execute all that is in the queue. -/
theorem exists_drained (queue : List QueuedSqlType) (s : Server) (hqueue : s.queuedSql = queue)
    (hidle : s.sqlThread = none) : ∃ s', Relation.ReflTransGen SqlStep s s' ∧ s'.queuedSql = [] ∧ s'.sqlThread = none := by
  induction queue generalizing s with
  | nil => exact ⟨s, .refl, hqueue, hidle⟩
  | cons sql rest ih =>
    obtain ⟨s', hs', hempty, hidle'⟩ := ih
      { s with queuedSql := rest, sqlThread := none, db := handlesql sql s.db } rfl rfl
    exact ⟨s', .head (.pop hidle hqueue) (.head (.done rfl) hs'), hempty, hidle'⟩

/-- **The queue can always be emptied**, by the thread for the database alone; nothing that can be
seen of a key changes on the way. -/
theorem exists_caughtUp (s : Server) : ∃ s', Relation.ReflTransGen SqlStep s s' ∧ s'.queuedSql = [] ∧
    s'.sqlThread = none ∧ ∀ key, view key s' = view key s := by
  have hsame : ∀ {s'}, Relation.ReflTransGen SqlStep s s' → ∀ key, view key s' = view key s := by
    intro s' hs' key
    induction hs' with
    | refl => rfl
    | tail _ hstep ih => rw [view_sqlStep hstep, ih]
  cases hsql : s.sqlThread with
  | none =>
    obtain ⟨s', hs', hempty, hidle⟩ := exists_drained s.queuedSql s rfl hsql
    exact ⟨s', hs', hempty, hidle, hsame hs'⟩
  | some running =>
    obtain ⟨s', hs', hempty, hidle⟩ := exists_drained s.queuedSql
      { s with sqlThread := none, db := handlesql running.1 s.db } rfl rfl
    have hall : Relation.ReflTransGen SqlStep s s' := .head (.done hsql) hs'
    exact ⟨s', hall, hempty, hidle, hsame hall⟩

/-- A server without clients, with an empty database. -/
def quiet : Server := ⟨.barren, ∅, ∅, 5, [], none, ⟨fun _ => ∅, fun _ => ∅, ∅, ∅⟩, []⟩

/-- The message that sets the block `7`. -/
def setsSeven : Message :=
  ⟨.BlockSet, .finite 1, .finite 2, .finite 3, .finite 0, 7, 0, .finite 1, (0, 0), ⟨0, 0, 0⟩, false⟩

/-- The handler has set the block, and has still to push the statement. -/
def half : Threads where
  shared := { quiet with
    csys := quiet.csys.setBlock setsSeven.spot setsSeven.info true
    written := [.block setsSeven.spot] }
  running := Function.update (Function.update (fun _ => none) 0
    (some (.csys, [.setBlock setsSeven.spot setsSeven.info, .queueBlock setsSeven.spot setsSeven.info]))) 0
    (some (.csys, [.queueBlock setsSeven.spot setsSeven.info]))

theorem reaches_half : Reaches (fun _ => (0, 0)) half := by
  have hstart : Reaches (fun _ => (0, 0)) ⟨quiet, fun _ => none⟩ := .start ⟨fun _ => rfl, rfl⟩
  have henter : Reaches (fun _ => (0, 0)) ⟨quiet, Function.update (fun _ => none) 0
      (some (.csys, [.setBlock setsSeven.spot setsSeven.info, .queueBlock setsSeven.spot setsSeven.info]))⟩ :=
    hstart.step () trivial (.enter (t := 0) rfl (fun ⟨_, _, h⟩ => nomatch h) ⟨setsSeven, rfl⟩)
  exact henter.step () trivial (.act (a := .setBlock setsSeven.spot setsSeven.info) rfl rfl)

theorem memory_half : half.shared.memory (.block setsSeven.spot) = some (.block 7) := by
  have hmap : half.shared.csys.userdatamap = quiet.csys.userdatamap.insert setsSeven.spot setsSeven.info := rfl
  simp [memory, hmap, setsSeven]

/-- The handler is over, and the statement has been executed. -/
theorem database_catchesUp_seven : ∃ m : Threads, Reaches (fun _ => (0, 0)) m ∧
    m.shared.db.row 5 (.block setsSeven.spot) = some (.block 7) := by
  have hpush := reaches_half.step () trivial (.act (Function.update_self ..) rfl)
  have hleave := hpush.step () trivial (.leave (Function.update_self ..))
  have hpop := hleave.step () trivial (.own (.pop rfl rfl))
  have hdone := hpop.step () trivial (.own (.done rfl))
  refine ⟨_, hdone, ?_⟩
  refine (database_catchesUp _ hdone rfl rfl (.block setsSeven.spot) (List.mem_cons_self ..) ?_).1.trans memory_half
  have hnone : ∀ t, Function.update (Function.update half.running 0 (some (.csys, []))) 0 none t = none := by
    intro t
    by_cases ht : t = 0 <;> simp [half, ht]
  rintro ⟨t, as, h⟩
  cases (hnone t).symm.trans h

/-- **The database is behind** while a handler has stored something and not pushed the statement. -/
theorem database_isBehind : ¬ ∀ (clientId : ℕ → Uuid) (m : Threads), Reaches clientId m →
    m.shared.queuedSql = [] → m.shared.sqlThread = none →
      ∀ key ∈ m.shared.written, m.shared.db.row m.shared.currseed key = m.shared.memory key := by
  intro h
  have hrow := h _ half reaches_half rfl rfl (.block setsSeven.spot) (List.mem_cons_self ..)
  rw [memory_half] at hrow
  exact absurd hrow (by simp [half, quiet, Database.row])

end Server

end Distgard
