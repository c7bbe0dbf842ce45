import Distgard.Game
import Distgard.Lifecycle
import Distgard.Server

/-!
# Sessions on a server

Clients come and go while handlers run. The main thread lets a client in: it reads the client's
inventory from the database, waits for the lock of the clients, and puts the client among them. A
client that has gone is taken from them, and its inventory with it. A client that takes off gives
the server another seed, under which the blocks are saved; the chests stay in memory. When the server
starts it loads the blocks and the chests of its first world from the database; whatever was in the
queue of the server before is lost.

## The model

A run consists of the steps of the handlers and of the thread for the database, as they are in
the model of the server, and of clients that are let in, clients that leave, clients that take off,
and restarts, at any moment. Reading an inventory and letting the client in are two steps; taking off
is one, under the lock of the blocks. A blob of the database is the list of slots in it. A file `seed2`
in the folder of the world, which nothing writes, is left out.

## What is proved

* `upToDate` — in every run, where no inventory is read while the client is there or a statement
  for it is outstanding, each block, chest and inventory in memory whose lock is free is what the
  database will have for the current seed when it has caught up: inventories always, blocks as long as
  nobody takes off to a seed that has been used, chests as long as nobody takes off.
* `memory_kept` — what is kept at a key changes under its lock only: a client that comes back has the
  inventory it left with, and a restart keeps whatever no statement outstanding is about, a block or a
  chest if the seed is still the first.
-/

namespace Distgard

open Lib

/-- The seed of the server's world. -/
def initialseed : UInt32 := 34481915

/-- The folder of the server's world. -/
def worldPath : String := "world/34481915"

/-- Read a chest from its row: an array of slots from the beginning of the blob. -/
def ChestInventory.ofRow (row : Bool × List Slot) : Option ChestInventory :=
  if h : ROWLENGTH * 4 ≤ row.2.length then
    some ⟨row.1, row.2.take (ROWLENGTH * 4), by rw [List.length_take, Nat.min_eq_left h]⟩
  else none

/-- Read an inventory from its blob. -/
def Inventory.ofRow (inventory : List Slot) : Option Inventory :=
  if h : ROWLENGTH ≤ inventory.length then
    some ⟨false, inventory.take ROWLENGTH, by rw [List.length_take, Nat.min_eq_left h]⟩
  else none

/-- The orders in which the tables of chests are read. -/
abbrev RowOrder := ∀ m : HashMap IVec3 (Bool × List Slot), HashMap.Iter m

/-- Load the chests of a table into an empty registry; a blob that is too short is a panic. -/
def loadChestRows (rows : RowOrder) (table : HashMap IVec3 (Bool × List Slot)) :
    Option (HashMap IVec3 ChestInventory) :=
  (rows table).entries.foldlM (fun reg row => (ChestInventory.ofRow row.2).map fun chest => reg.insert row.1 chest) ∅

theorem length_STARTINGITEMS : STARTINGITEMS.length = ROWLENGTH := rfl

/-- The inventory a client is let in with: that of the database if it has one that can be read,
and else that of a new player. -/
def loadInv (id : Uuid) (db : Database) : Inventory :=
  ((db.invs.lookup id).bind Inventory.ofRow).getD ⟨false, STARTINGITEMS, length_STARTINGITEMS⟩

/-- A server with the threads of its handlers, the files of its world, and the client that the
main thread is letting in. -/
structure Sessions where
  /-- What the threads share, and the handlers that are running. -/
  threads : Server.Threads
  /-- The files, by folder and name. -/
  files : HashMap (String × String) (List Char)
  /-- The client that is being let in, with the inventory that has been read for it. -/
  accepting : Option (Uuid × Inventory)

/-- What can happen to a server. -/
inductive SessionEvent where
  /-- A handler or the thread for the database takes a step. -/
  | thread
  /-- The main thread reads the inventory of a client that has connected. -/
  | read (id : Uuid)
  /-- It puts the client among the others. -/
  | letIn
  /-- A client is taken from them. -/
  | leave (id : Uuid)
  /-- A client takes off, and a seed is drawn. -/
  | takeoff (newseed : UInt32)
  /-- The server ends, and is started again. -/
  | restart

/-- All statements for a key, in the tables of a seed, have been executed. -/
def Server.Executed (seed : UInt32) (key : Key) (s : Server) : Prop :=
  ∀ sql ∈ s.outstanding, ∀ v, sql.writes seed ≠ some (key, v)

/-- Take off to another planet: the chunk system takes up another seed, which is the current one from
then on, and the blocks are saved under it. -/
def Server.takeoff (env : Externals) (order : MapOrder) (newseed : UInt32) (disk : Disk) (s : Server) : Server × Disk :=
  let csys := s.csys.reset env 0 newseed ((s.csys.planetType + 1).toNat % 2)
  let disk := csys.saveCurrentWorldToFile order newseed disk s!"world/{newseed.toNat}"
  ({ s with csys := csys, currseed := newseed, db := { s.db with userdatamap := disk.table } }, disk)

namespace Sessions

open Server

/-- Start a server: load the blocks and the chests of its world, and save the world. -/
inductive Starts (env : Externals) (db : Database) (files : HashMap (String × String) (List Char)) : Sessions → Prop
  /-- The world and its chests can be loaded. -/
  | intro {order rows : MapOrder} {chestRows : RowOrder} {fresh cs : ChunkSystem} {disk disk' : Disk} {seed : UInt32}
      {reg : HashMap IVec3 ChestInventory} : disk.files = files → (∀ seed, disk.table seed = db.userdatamap seed) →
      files.lookup (worldPath, "seed2") = none →
      fresh.loadWorldFromFile env order rows initialseed disk worldPath = .ok (cs, seed, disk') →
      loadChestRows chestRows (db.chestRegistry initialseed) = some reg →
      Starts env db files {
        threads.shared := {
          csys := cs
          chestReg := reg
          clients := ∅
          currseed := initialseed
          queuedSql := []
          sqlThread := none
          db := { db with userdatamap := (cs.saveCurrentWorldToFile order initialseed disk' worldPath).table }
          written := [] }
        threads.running := fun _ => none
        files := (cs.saveCurrentWorldToFile order initialseed disk' worldPath).files
        accepting := none }

/-- The same server, with other clients. -/
def withClients (s : Sessions) (clients : HashMap Uuid Client) : Sessions :=
  { s with threads.shared := { s.threads.shared with clients := clients } }

/-- What an event does. -/
inductive Happens (env : Externals) (clientId : ℕ → Uuid) : Sessions → SessionEvent → Sessions → Prop
  /-- A step of a handler or of the thread for the database. -/
  | thread {s : Sessions} {m : Threads} :
      Monitor.Step act (fun t l as => ∃ message, handleMessage (clientId t) message = some (l, as)) SqlStep s.threads m →
      Happens env clientId s .thread { s with threads := m }
  /-- The main thread is free, and reads an inventory. -/
  | read {s : Sessions} {id : Uuid} : s.accepting = none →
      Happens env clientId s (.read id) { s with accepting := some (id, loadInv id s.threads.shared.db) }
  /-- It has the lock of the clients. -/
  | letIn {s : Sessions} {id : Uuid} {inv : Inventory} : s.accepting = some (id, inv) → ¬ s.threads.Held (.client id) →
      Happens env clientId s .letIn
        { s.withClients (s.threads.shared.clients.insert id ⟨inv, 0, false⟩) with accepting := none }
  /-- The client's own thread has the lock. -/
  | leave {s : Sessions} {id : Uuid} : ¬ s.threads.Held (.client id) →
      Happens env clientId s (.leave id) (s.withClients (s.threads.shared.clients.erase id))
  /-- A handler that is free has the lock of the blocks. -/
  | takeoff {s : Sessions} {t : ℕ} {order : MapOrder} {newseed : UInt32} {disk : Disk} : s.threads.running t = none →
      ¬ s.threads.Held .csys → disk.files = s.files →
      (∀ seed, disk.table seed = s.threads.shared.db.userdatamap seed) →
      Happens env clientId s (.takeoff newseed)
        { s with
          threads.shared := (s.threads.shared.takeoff env order newseed disk).1
          files := (s.threads.shared.takeoff env order newseed disk).2.files }
  /-- The next server finds what is in the database and in the files. -/
  | restart {s s' : Sessions} : Starts env s.threads.shared.db s.files s' → Happens env clientId s .restart s'

end Sessions

/-- Each row of a chest or an inventory has the slots it is read for. -/
structure Database.WellFormed (db : Database) : Prop where
  /-- Chests have four rows of slots. -/
  chest : ∀ seed pos row, (db.chestRegistry seed).lookup pos = some row → row.2.length = ROWLENGTH * 4
  /-- Inventories have one. -/
  inv : ∀ id row, db.invs.lookup id = some row → row.length = ROWLENGTH

namespace Sessions

open Server

/-- A server that was started with some database. -/
def Initial (env : Externals) (s : Sessions) : Prop := ∃ db files, db.WellFormed ∧ Starts env db files s

/-- A seed that can be taken up while a key is followed: for a block, one whose tables neither have it
nor will; for a chest, none. -/
def Unused (newseed : UInt32) (s : Server) : Key → Prop
  | .block spot => s.db.row newseed (.block spot) = none ∧ s.Executed newseed (.block spot)
  | .chest _ => False
  | .inv _ => True

/-- What may happen while a key is followed. An inventory is read only when the client is not there and
the database has all that was pushed for it, and clients take off to seeds that can be taken up. -/
def Allowed (key : Key) (s : Sessions) : SessionEvent → Prop
  | .read id => id ∉ s.threads.shared.clients ∧ s.threads.shared.Executed s.threads.shared.currseed (.inv id)
  | .takeoff newseed => Unused newseed s.threads.shared key
  | _ => True

/-- The states that are reached, where each thread handles messages of a client. -/
abbrev Reaches (env : Externals) (clientId : ℕ → Uuid) (key : Key) : Sessions → Prop :=
  Reached (Initial env) (Allowed key) (Happens env clientId)

end Sessions

/-- What is found at a key that nothing was ever stored to. -/
def Key.fresh : Key → Option Value
  | .block _ => none
  | .chest _ => some (.slots ChestInventory.untouched.inv)
  | .inv _ => some (.slots STARTINGITEMS)

/-- What is in memory is what the database will have; the inventory of a client that is not there
is in the database only. -/
def Seen.UpToDate (key : Key) (w : Seen) : Prop :=
  ((∃ id, key = .inv id) ∧ w.memory = none) ∨ w.memory.or key.fresh = w.behind.or key.fresh

/-! ### Loading -/

namespace ChunkSystem

theorem userdatamap_readPlanet {ls : List (List Char)} {cs cs' : ChunkSystem} (h : ls.foldlM readPlanet cs = .ok cs') :
    cs'.userdatamap = cs.userdatamap := by
  induction ls generalizing cs with
  | nil =>
    cases h
    rfl
  | cons line ls ih =>
    rw [List.foldlM_cons, readPlanet] at h
    split at h
    · next pt _ =>
      have hrest : ls.foldlM readPlanet { cs with planetType := pt } = .ok cs' := h
      have hsame := ih hrest
      exact hsame
    · cases h

/-- **What loading a world does** if there is no file `seed2`: the blocks are those of the table, and the
table stays as it was. -/
theorem loadWorldFromFile_spec {env : Externals} {order rows : MapOrder} {currseed seed : UInt32} {disk disk' : Disk}
    {cs cs' : ChunkSystem} {path : String} (hseed2 : disk.files.lookup (path, "seed2") = none)
    (h : cs.loadWorldFromFile env order rows currseed disk path = .ok (cs', seed, disk')) :
    seed = currseed ∧ (∀ x, cs'.userdatamap.lookup x = (disk.table currseed).lookup x) ∧
      ∀ x, (disk'.table currseed).lookup x = (disk.table currseed).lookup x := by
  set cs₀ : ChunkSystem := { cs with userdatamap := ∅, nonuserdatamap := ∅ } with hcs₀
  set loading := if (path, "udm") ∈ disk.files then disk else cs₀.saveCurrentWorldToFile order currseed disk path
    with hloading
  have htable : ∀ x, (loading.table currseed).lookup x = (disk.table currseed).lookup x := by
    intro x
    rw [hloading]
    split
    · rfl
    · rw [lookup_table_save, hcs₀, Finmap.lookup_empty, Option.none_or]
  have hfile : loading.files.lookup (path, "seed2") = none := by
    rw [hloading]
    split
    · exact hseed2
    · rw [lookup_files_save, if_neg (by decide), if_neg (by decide), hseed2]
  have hload : cs₀.loadSeedBlocksPlanet env rows currseed loading path = .ok (cs', seed, disk') := h
  simp only [loadSeedBlocksPlanet, hfile] at hload
  cases hpt : loading.files.lookup (path, "pt") with
  | none => simp [hpt, bind, Except.bind] at hload
  | some text =>
    simp only [hpt, bind, Except.bind, pure, Except.pure] at hload
    split at hload
    · cases hload
    · next hread =>
      cases hload
      refine ⟨rfl, ?_, ?_⟩
      · intro x
        rw [userdatamap_readPlanet hread, (rows _).lookup_insertAll, htable, hcs₀, Finmap.lookup_empty, Option.or_none]
      · intro x
        rw [Disk.table, Finmap.lookup_insert, Option.getD_some, htable]

end ChunkSystem

/-- Rows with the right number of slots are loaded as they are. -/
theorem lookup_loadChestRows {rows : RowOrder} {table : HashMap IVec3 (Bool × List Slot)}
    (hlength : ∀ pos row, table.lookup pos = some row → row.2.length = ROWLENGTH * 4) :
    ∃ reg, loadChestRows rows table = some reg ∧
      ∀ pos, (reg.lookup pos).map ChestInventory.inv = (table.lookup pos).map Prod.snd := by
  set chestOf : Bool × List Slot → ChestInventory := fun row => (ChestInventory.ofRow row).getD .untouched with hchestOf
  have hofRow : ∀ row : Bool × List Slot, row.2.length = ROWLENGTH * 4 →
      ChestInventory.ofRow row = some (chestOf row) ∧ (chestOf row).inv = row.2 := by
    intro row hrow
    simp [hchestOf, ChestInventory.ofRow, hrow, List.take_of_length_le]
  have hfold : ∀ (l : List (IVec3 × Bool × List Slot)) (reg : HashMap IVec3 ChestInventory),
      (∀ r ∈ l, r.2.2.length = ROWLENGTH * 4) →
      l.foldlM (fun reg row => (ChestInventory.ofRow row.2).map fun chest => reg.insert row.1 chest) reg =
        some (HashMap.insertAll (l.map fun r => (r.1, chestOf r.2)) reg) := by
    intro l
    induction l with
    | nil => exact fun reg _ => rfl
    | cons r l ih =>
      intro reg hl
      rw [List.foldlM_cons, (hofRow r.2 (hl r (List.mem_cons_self ..))).1]
      exact ih _ fun r' hr' => hl r' (List.mem_cons_of_mem r hr')
  have hentries : ∀ r ∈ (rows table).entries, r.2.2.length = ROWLENGTH * 4 := fun r hr =>
    hlength r.1 r.2 (((rows table).mem_iff r.1 r.2).mp hr)
  refine ⟨_, hfold _ ∅ hentries, ?_⟩
  intro pos
  cases hpos : table.lookup pos with
  | none =>
    rw [HashMap.lookup_insertAll_of_notMem, Finmap.lookup_empty]
    · rfl
    · intro v hv
      obtain ⟨⟨pos', row⟩, hr, heq⟩ := List.mem_map.mp hv
      cases heq
      rw [(rows table).mem_iff, hpos] at hr
      cases hr
  | some row =>
    rw [HashMap.lookup_insertAll_of_forall (v := chestOf row), Option.map_some, (hofRow row (hlength pos row hpos)).2]
    · rfl
    · exact List.mem_map.mpr ⟨(pos, row), ((rows table).mem_iff pos row).mpr hpos, rfl⟩
    · intro w hw
      obtain ⟨⟨pos', row'⟩, hr, heq⟩ := List.mem_map.mp hw
      cases heq
      rw [(rows table).mem_iff, hpos, Option.some.injEq] at hr
      rw [hr]

/-- The inventory a client is let in with. -/
theorem slots_loadInv {db : Database} (h : db.WellFormed) (seed : UInt32) (id : Uuid) :
    some (.slots (loadInv id db).inv) = (db.row seed (.inv id)).or (Key.fresh (.inv id)) := by
  rw [Database.row, loadInv]
  cases hrow : db.invs.lookup id with
  | none => rfl
  | some row => simp [Inventory.ofRow, h.inv id row hrow, List.take_of_length_le]

/-! ### Statements are well formed -/

/-- What a statement writes has the slots it is read for. -/
def QueuedSqlType.WellFormed : QueuedSqlType → Prop
  | .ChestInventoryUpdate _ inv _ => inv.length = ROWLENGTH * 4
  | .InventoryInventoryUpdate _ inv => inv.length = ROWLENGTH
  | _ => True

theorem Database.WellFormed.handlesql {db : Database} (h : db.WellFormed) {sql : QueuedSqlType} (hsql : sql.WellFormed) :
    (handlesql sql db).WellFormed := by
  cases sql with
  | ChestInventoryUpdate key inv seed =>
    refine ⟨?_, h.inv⟩
    intro seed' pos row hrow
    by_cases hseed : seed' = seed
    · subst hseed
      simp only [Distgard.handlesql, Function.update_self, HashMap.lookup_insert'] at hrow
      split at hrow
      · cases hrow
        exact hsql
      · exact h.chest seed' pos row hrow
    · simp only [Distgard.handlesql, Function.update_of_ne hseed] at hrow
      exact h.chest seed' pos row hrow
  | InventoryInventoryUpdate key inv =>
    refine ⟨h.chest, ?_⟩
    intro id row hrow
    simp only [Distgard.handlesql, HashMap.lookup_insert'] at hrow
    split at hrow
    · cases hrow
      exact hsql
    · exact h.inv id row hrow
  | UserDataMap seed spot block => exact ⟨h.chest, h.inv⟩
  | PlayerPositionUpdate key position => exact ⟨h.chest, h.inv⟩
  | None => exact h

namespace Server

/-- The database and all statements outstanding are well formed. -/
structure WellFormed (s : Server) : Prop where
  /-- The database is. -/
  db : s.db.WellFormed
  /-- The statements are. -/
  outstanding : ∀ sql ∈ s.outstanding, sql.WellFormed

theorem WellFormed.push {s : Server} (h : s.WellFormed) {sql : QueuedSqlType} (hsql : sql.WellFormed) :
    (s.push sql).WellFormed := by
  refine ⟨h.db, ?_⟩
  have houtstanding : (s.push sql).outstanding = s.outstanding ++ [sql] := by simp [Server.outstanding, Server.push]
  rw [houtstanding]
  simpa [or_imp, forall_and, hsql] using h.outstanding

theorem WellFormed.clients {s : Server} (h : s.WellFormed) (clients : HashMap Uuid Client) :
    ({ s with clients := clients } : Server).WellFormed := ⟨h.db, h.outstanding⟩

/-- An action pushes well-formed statements only. -/
theorem WellFormed.of_act {s s' : Server} (h : s.WellFormed) {a : Action} (hact : act a s = some s') :
    s'.WellFormed := by
  cases a with
  | setBlock spot block =>
    cases hact
    exact ⟨h.db, h.outstanding⟩
  | queueBlock spot block =>
    cases hact
    exact h.push trivial
  | openChest pos =>
    cases hact
    exact ⟨h.db, h.outstanding⟩
  | setChestSlot pos slot contents =>
    rw [Server.act] at hact
    split at hact
    · split at hact
      · cases hact
        exact ⟨h.db, h.outstanding⟩
      · cases hact
    · cases hact
  | queueChest pos =>
    obtain ⟨chest, -, rfl⟩ := Option.map_eq_some_iff.mp hact
    exact h.push chest.length_inv
  | setInvSlot id slot contents =>
    rw [Server.act] at hact
    split at hact
    · split at hact
      · cases hact
        exact ⟨h.db, h.outstanding⟩
      · cases hact
    · cases hact
      exact h
  | queueInv id =>
    obtain ⟨cli, -, rfl⟩ := Option.map_eq_some_iff.mp hact
    exact h.push cli.inv.length_inv
  | updatePlayer id position =>
    obtain ⟨cli, -, rfl⟩ := Option.map_eq_some_iff.mp hact
    split
    · exact (h.clients _).push trivial
    · exact h.clients _

/-- So does the thread for the database. -/
theorem WellFormed.of_sqlStep {s s' : Server} (h : s.WellFormed) (hstep : SqlStep s s') : s'.WellFormed := by
  cases hstep with
  | pop hidle hqueue =>
    have hsqls := h.outstanding
    simp only [Server.outstanding, hidle, hqueue] at hsqls
    exact ⟨h.db, by simpa [Server.outstanding] using hsqls⟩
  | retry hsql _ =>
    have hsqls := h.outstanding
    simp only [Server.outstanding, hsql] at hsqls
    exact ⟨h.db, by simpa [Server.outstanding] using hsqls⟩
  | done hsql =>
    have hsqls := h.outstanding
    simp only [Server.outstanding, hsql] at hsqls
    refine ⟨h.db.handlesql (hsqls _ (by simp)), ?_⟩
    intro sql' hsql'
    exact hsqls sql' (by simpa [Server.outstanding] using .inr hsql')

end Server

/-! ### What a handler does -/

/-- **What a handler leaves** is up to date. -/
theorem upToDate_of_handleMessage {clientId : Uuid} {message : Message} {key : Key} {as : List Action} {w : Seen}
    (h : handleMessage clientId message = some (key.lock, as)) (hw : w.UpToDate key) :
    (Monitor.alone (Seen.after key) as w).UpToDate key := by
  unfold handleMessage at h
  split at h
  · split at h
    · obtain ⟨hkey, rfl⟩ : Lock.chest message.otherpos = key.lock ∧ _ := by simpa using h
      obtain rfl := Server.eq_chest_of_lock hkey
      by_cases hslot : message.slotIndex < ROWLENGTH * 4
      · simp [Monitor.alone, Seen.after, hslot, Seen.UpToDate]
      · -- the chest is there now, and the handler panics
        cases hmemory : w.memory <;>
          simpa [Monitor.alone, Seen.after, hslot, Seen.UpToDate, hmemory, Key.fresh] using hw
    · obtain ⟨hkey, rfl⟩ : Lock.client clientId = key.lock ∧ _ := by simpa using h
      obtain rfl := Server.eq_inv_of_lock hkey
      cases hmemory : w.memory with
      | none => simpa [Monitor.alone, Seen.after, hmemory] using hw
      | some v =>
        by_cases hslot : message.slotIndex < ROWLENGTH
        · simp [Monitor.alone, Seen.after, hmemory, hslot, Seen.UpToDate]
        · simpa [Monitor.alone, Seen.after, hmemory, hslot] using hw
    · cases h
  · obtain ⟨hkey, rfl⟩ : Lock.client clientId = key.lock ∧ _ := by simpa using h
    cases hmemory : w.memory <;> simpa [Monitor.alone, Seen.after, hmemory] using hw
  · obtain ⟨hkey, rfl⟩ : Lock.csys = key.lock ∧ _ := by simpa using h
    by_cases hspot : key = .block message.spot
    · simp [Monitor.alone, Seen.after, hspot, Seen.UpToDate]
    · simpa [Monitor.alone, Seen.after, hspot] using hw
  · obtain ⟨hkey, rfl⟩ : Lock.csys = key.lock ∧ _ := by simpa using h
    by_cases hspot₂ : key = .block message.otherpos
    · by_cases hsame : message.otherpos = message.spot <;>
        simp [Monitor.alone, Seen.after, hspot₂, hsame, Seen.UpToDate]
    · by_cases hspot : key = .block message.spot
      · subst hspot
        simp [Monitor.alone, Seen.after, hspot₂, Seen.UpToDate]
      · simpa [Monitor.alone, Seen.after, hspot, hspot₂] using hw
  · cases h

/-- A handler does nothing to the inventory of a client that is not there. -/
theorem Seen.after_of_absent {id : Uuid} {a : Action} {w w' : Seen} (ha : a.lock = .client id) (hw : w.memory = none)
    (h : Seen.after (.inv id) a w = some w') : w' = w := by
  cases a with
  | setBlock spot block => cases ha
  | queueBlock spot block => cases ha
  | openChest pos => cases ha
  | setChestSlot pos slot contents => cases ha
  | queueChest pos => cases ha
  | setInvSlot id' slot contents => simpa [Seen.after, hw, eq_comm] using h
  | queueInv id' => simp [Seen.after, hw] at h
  | updatePlayer id' position => simp [Seen.after, hw] at h

namespace Server

/-- The offers of the handlers. -/
abbrev Offers (clientId : ℕ → Uuid) (t : ℕ) (l : Lock) (as : List Action) : Prop :=
  ∃ message, handleMessage (clientId t) message = some (l, as)

/-- Sections keep a key up to date. -/
theorem guards_upToDate (clientId : ℕ → Uuid) (key : Key) :
    Monitor.Guards act (Offers clientId) SqlStep Key.lock view (fun l a => a.lock = l) Seen.after
      (fun k w => k = key → w.UpToDate k) where
  acts h := view_act h
  frame h hne hact := view_act_of_ne (fun heq => hne (heq.symm.trans h)) hact
  owns h := view_sqlStep h _
  sections := fun ⟨_, h⟩ => lock_of_handleMessage h
  keeps := fun ⟨_, h⟩ hw hkey => upToDate_of_handleMessage h (hw hkey)

/-- The threads are in order, and a key is up to date. -/
abbrev Ordered (key : Key) (m : Threads) : Prop :=
  Monitor.Inv Key.lock view (fun l a => a.lock = l) Seen.after (fun k w => k = key → w.UpToDate k) m

/-- What is kept at a key when the database has caught up. -/
def kept (key : Key) (s : Server) : Option Value := (view key s).behind.or key.fresh

theorem memory_view_eq_none {id : Uuid} {s : Server} : (view (.inv id) s).memory = none ↔ id ∉ s.clients := by
  rw [memory_view_inv, Option.map_eq_none_iff, Finmap.lookup_eq_none]

/-- A step of a thread changes the key of a lock that is free in no way. -/
theorem view_step_of_free {clientId : ℕ → Uuid} {m m' : Threads} {key : Key} (hm : Ordered key m)
    (hfree : ¬ m.Held key.lock) (hstep : Monitor.Step act (Offers clientId) SqlStep m m') :
    view key m'.shared = view key m.shared := by
  cases hstep with
  | enter _ _ _ => rfl
  | fail _ _ => rfl
  | leave _ => rfl
  | own hs => exact view_sqlStep hs key
  | act ht hact =>
    refine view_act_of_ne (fun ha => hfree ?_) hact
    rw [← ha, hm.under ht _ (List.mem_cons_self ..)]
    exact ⟨_, _, ht⟩

/-- Nor does it change the inventory of a client that is not there. -/
theorem view_step_of_absent {clientId : ℕ → Uuid} {m m' : Threads} {id : Uuid} (habsent : id ∉ m.shared.clients)
    (hstep : Monitor.Step act (Offers clientId) SqlStep m m') :
    view (.inv id) m'.shared = view (.inv id) m.shared := by
  cases hstep with
  | enter _ _ _ => rfl
  | fail _ _ => rfl
  | leave _ => rfl
  | own hs => exact view_sqlStep hs _
  | @act t l a as s ht hact =>
    by_cases ha : a.lock = .client id
    · have hview : (act a m.shared).map (view (.inv id)) = _ := view_act ha
      rw [hact, Option.map_some] at hview
      exact Seen.after_of_absent ha (memory_view_eq_none.mpr habsent) hview.symm
    · exact view_act_of_ne ha hact

/-- Statements stay well formed. -/
theorem WellFormed.of_step {clientId : ℕ → Uuid} {m m' : Threads} (h : m.shared.WellFormed)
    (hstep : Monitor.Step act (Offers clientId) SqlStep m m') : m'.shared.WellFormed := by
  cases hstep with
  | enter _ _ _ => exact h
  | fail _ _ => exact h
  | leave _ => exact h
  | own hs => exact h.of_sqlStep hs
  | act _ hact => exact h.of_act hact

/-- A row that no statement outstanding writes is what it will be. -/
theorem row_caughtUp_of_notWritten {s : Server} {seed : UInt32} {key : Key} (h : s.Executed seed key) :
    s.caughtUp.row seed key = s.db.row seed key := by
  refine foldl_induct (fun db : Database => db.row seed key = s.db.row seed key) s.outstanding ?_ rfl
  intro db sql hsql hdb
  rw [row_handlesql]
  cases hwrites : sql.writes seed with
  | none => exact hdb
  | some kv =>
    have hne : key ≠ kv.1 := fun heq => h sql hsql kv.2 (heq ▸ hwrites)
    simpa [hne] using hdb

/-- What taking a client away does to a key. -/
theorem view_erase (id : Uuid) (s : Server) (key : Key) :
    view key { s with clients := s.clients.erase id } =
      if key = .inv id then { view key s with memory := none } else view key s := by
  split
  · next hkey =>
    subst hkey
    simp [view, memory, caughtUp, outstanding]
  · next hkey =>
    cases key with
    | inv id' =>
      have hne : id' ≠ id := fun h => hkey (h ▸ rfl)
      simp [view, memory, caughtUp, outstanding, hne]
    | block spot => simp [view, memory, caughtUp, outstanding]
    | chest pos => simp [view, memory, caughtUp, outstanding]

/-- What statements make of a row depends on the row alone. -/
theorem row_foldl_congr {seed : UInt32} {key : Key} {db db' : Database} (h : db.row seed key = db'.row seed key)
    (sqls : List QueuedSqlType) : (sqls.foldl (fun db sql => handlesql sql db) db).row seed key =
      (sqls.foldl (fun db sql => handlesql sql db) db').row seed key := by
  induction sqls generalizing db db' with
  | nil => exact h
  | cons sql sqls ih => exact ih (by rw [row_handlesql, row_handlesql, h])

/-! ### Taking off -/

/-- Taking up another seed leaves the blocks alone. -/
theorem userdatamap_reset (env : Externals) (cs : ChunkSystem) (radius : UInt8) (seed : UInt32) (noisetype : ℕ) :
    (cs.reset env radius seed noisetype).userdatamap = cs.userdatamap := by
  simp only [ChunkSystem.reset, ChunkSystem.iterate_pushSlot]
  split
  · rfl
  · rfl

section

variable (env : Externals) (order : MapOrder) (newseed : UInt32) (disk : Disk) (s : Server)

/-- Taking off changes nothing in memory. -/
theorem memory_takeoff (key : Key) : (s.takeoff env order newseed disk).1.memory key = s.memory key := by
  cases key with
  | block spot => rw [takeoff, memory, userdatamap_reset, memory]
  | chest pos => rfl
  | inv id => rfl

/-- It changes nothing that can be seen of an inventory, which has no seed. -/
theorem view_takeoff_inv (id : Uuid) :
    view (.inv id) (s.takeoff env order newseed disk).1 = view (.inv id) s := by
  have hrow : (s.takeoff env order newseed disk).1.db.row newseed (.inv id) = s.db.row newseed (.inv id) := rfl
  have hbehind : (s.takeoff env order newseed disk).1.caughtUp.row newseed (.inv id) = s.caughtUp.row newseed (.inv id) :=
    row_foldl_congr hrow s.outstanding
  exact Seen.ext rfl (memory_takeoff env order newseed disk s (.inv id)) hbehind

variable {env order newseed disk s}

/-- A block is saved under a seed that has nothing of it. -/
theorem behind_takeoff_block {spot : IVec3} (htables : ∀ seed, disk.table seed = s.db.userdatamap seed)
    (hrow : s.db.row newseed (.block spot) = none) (hexecuted : s.Executed newseed (.block spot)) :
    (view (.block spot) (s.takeoff env order newseed disk).1).behind = s.memory (.block spot) := by
  have hsaved : (s.takeoff env order newseed disk).1.db.row newseed (.block spot) = s.memory (.block spot) := by
    have hnone : (disk.table newseed).lookup spot = none := by
      rw [htables]
      exact Option.map_eq_none_iff.mp hrow
    simp only [takeoff, Database.row, ChunkSystem.lookup_table_save, userdatamap_reset, hnone, Option.or_none, memory]
  have hexecuted' : (s.takeoff env order newseed disk).1.Executed newseed (.block spot) := hexecuted
  exact (row_caughtUp_of_notWritten hexecuted').trans hsaved

end

end Server

namespace Sessions

open Server

variable {env : Externals} {clientId : ℕ → Uuid} {key : Key} {s s' : Sessions}

/-- The invariant, while a key is followed. -/
structure Sound (key : Key) (s : Sessions) : Prop where
  /-- The threads are in order. -/
  ordered : Ordered key s.threads
  /-- The client that is being let in is not there yet, and its inventory is what the database will have. -/
  accepting : ∀ id inv, s.accepting = some (id, inv) →
    id ∉ s.threads.shared.clients ∧ some (.slots inv.inv) = kept (.inv id) s.threads.shared
  /-- The rows are well formed. -/
  wellFormed : s.threads.shared.WellFormed

/-- **What starting does**: the database says what it said before, and what is in memory comes from it. -/
theorem Starts.spec {db : Database} {files : HashMap (String × String) (List Char)} (hdb : db.WellFormed)
    (h : Starts env db files s) :
    (∀ key, (view key s.threads.shared).behind = db.row initialseed key) ∧
      (∀ key, (view key s.threads.shared).UpToDate key) ∧ (∀ t, s.threads.running t = none) ∧ s.accepting = none ∧
      s.threads.shared.currseed = initialseed ∧ s.threads.shared.WellFormed := by
  cases h with
  | @intro order rows chestRows fresh cs disk disk' seed reg hfiles htables hseed2 hload hchests =>
    rw [← hfiles] at hseed2
    obtain ⟨-, hblocks, htable⟩ := ChunkSystem.loadWorldFromFile_spec hseed2 hload
    have hloaded : ∃ reg, loadChestRows chestRows (db.chestRegistry initialseed) = some reg ∧ _ :=
      lookup_loadChestRows (hdb.chest initialseed)
    obtain ⟨reg', hreg', hlookup⟩ := hloaded
    obtain rfl : reg = reg' := Option.some.inj (hchests.symm.trans hreg')
    have hsaved : ∀ x, ((cs.saveCurrentWorldToFile order initialseed disk' worldPath).table initialseed).lookup x =
        (db.userdatamap initialseed).lookup x := by
      intro x
      rw [ChunkSystem.lookup_table_save, hblocks, htable, Option.or_self, htables]
    have hbehind : ∀ key, Database.row initialseed
        { db with userdatamap := (cs.saveCurrentWorldToFile order initialseed disk' worldPath).table } key =
          db.row initialseed key := by
      intro key
      cases key with
      | block spot => rw [Database.row, Database.row, hsaved]
      | chest pos => rfl
      | inv id => rfl
    refine ⟨hbehind, ?_, fun t => rfl, rfl, rfl, ⟨⟨hdb.chest, hdb.inv⟩, by simp [outstanding]⟩⟩
    intro key
    cases key with
    | block spot =>
      have hmemory : (cs.userdatamap.lookup spot).map Value.block = db.row initialseed (.block spot) := by
        rw [hblocks, htables, Database.row]
      exact .inr (congrArg (Option.or · none) (hmemory.trans (hbehind (.block spot)).symm))
    | chest pos =>
      have hmemory : (reg.lookup pos).map (fun chest => Value.slots chest.inv) = db.row initialseed (.chest pos) := by
        have hmap := congrArg (Option.map Value.slots) (hlookup pos)
        rw [Option.map_map, Option.map_map] at hmap
        exact hmap
      exact .inr (congrArg (Option.or · (Key.fresh (.chest pos))) (hmemory.trans (hbehind (.chest pos)).symm))
    | inv id => exact .inl ⟨⟨id, rfl⟩, rfl⟩

theorem Starts.sound {db : Database} {files : HashMap (String × String) (List Char)} (hdb : db.WellFormed)
    (h : Starts env db files s) : Sound key s := by
  obtain ⟨-, hkeys, hidle, haccepting, -, hwf⟩ := h.spec hdb
  refine ⟨Monitor.Inv.start hidle fun k _ => hkeys k, ?_, hwf⟩
  intro id inv h'
  rw [haccepting] at h'
  cases h'

/-- Taking off leaves the key that is followed up to date. -/
theorem Sound.takeoff (h : Sound key s) {order : MapOrder} {newseed : UInt32} {disk : Disk}
    (hfree : ¬ s.threads.Held .csys) (htables : ∀ seed, disk.table seed = s.threads.shared.db.userdatamap seed)
    (hunused : Unused newseed s.threads.shared key) :
    Sound key { s with
      threads.shared := (s.threads.shared.takeoff env order newseed disk).1
      files := (s.threads.shared.takeoff env order newseed disk).2.files } := by
  refine ⟨h.ordered.disturb fun k => ?_, ?_, ⟨⟨h.wellFormed.db.chest, h.wellFormed.db.inv⟩, h.wellFormed.outstanding⟩⟩
  · cases k with
    | inv id => exact .inl (view_takeoff_inv env order newseed disk _ id)
    | chest pos =>
      -- no chest is followed while clients take off
      refine .inr (.inr fun w hkey => ?_)
      subst hkey
      exact hunused.elim
    | block spot =>
      refine .inr (.inl ⟨hfree, ?_⟩)
      rintro rfl
      obtain ⟨hrow, hexecuted⟩ := hunused
      have hmemory := memory_takeoff env order newseed disk s.threads.shared (.block spot)
      exact .inr (congrArg (Option.or · none) (hmemory.trans (behind_takeoff_block htables hrow hexecuted).symm))
  · intro id inv haccepting
    obtain ⟨habsent, hinv⟩ := h.accepting id inv haccepting
    refine ⟨habsent, hinv.trans ?_⟩
    rw [kept, kept, view_takeoff_inv]

/-- **One event** keeps the invariant. -/
theorem Sound.step (h : Sound key s) {event : SessionEvent} (hallowed : Allowed key s event)
    (hstep : Happens env clientId s event s') : Sound key s' := by
  cases hstep with
  | thread hthread =>
    refine ⟨h.ordered.step (guards_upToDate clientId key) hthread, ?_, h.wellFormed.of_step hthread⟩
    intro id inv haccepting
    obtain ⟨habsent, hinv⟩ := h.accepting id inv haccepting
    have hview := view_step_of_absent habsent hthread
    constructor
    · rw [← memory_view_eq_none, hview]
      exact memory_view_eq_none.mpr habsent
    · rw [kept, hview]
      exact hinv
  | @read id hfree =>
    obtain ⟨habsent, hexecuted⟩ := hallowed
    refine ⟨h.ordered, ?_, h.wellFormed⟩
    rintro id' inv ⟨⟩
    refine ⟨habsent, ?_⟩
    rw [slots_loadInv h.wellFormed.db s.threads.shared.currseed id, ← row_caughtUp_of_notWritten hexecuted]
    rfl
  | @letIn id inv haccepting hfree =>
    obtain ⟨-, hinv⟩ := h.accepting id inv haccepting
    refine ⟨h.ordered.disturb fun k => ?_, (fun _ _ h' => nomatch h'), h.wellFormed.clients _⟩
    have hview := view_client id ⟨inv, 0, false⟩ s.threads.shared.written s.threads.shared k
    by_cases hk : k = .inv id
    · subst hk
      rw [if_pos rfl] at hview
      refine .inr (.inl ⟨hfree, fun _ => ?_⟩)
      show (view (.inv id) { s.threads.shared with clients := _ }).UpToDate (.inv id)
      rw [hview]
      exact .inr ((Option.some_or ..).trans hinv)
    · rw [if_neg hk] at hview
      exact .inl hview
  | @leave id hfree =>
    refine ⟨h.ordered.disturb fun k => ?_, ?_, h.wellFormed.clients _⟩
    · have hview := view_erase id s.threads.shared k
      by_cases hk : k = .inv id
      · subst hk
        rw [if_pos rfl] at hview
        refine .inr (.inl ⟨hfree, fun _ => ?_⟩)
        show (view (.inv id) { s.threads.shared with clients := _ }).UpToDate (.inv id)
        rw [hview]
        exact .inl ⟨⟨id, rfl⟩, rfl⟩
      · rw [if_neg hk] at hview
        exact .inl hview
    · intro id' inv haccepting
      obtain ⟨habsent, hinv⟩ := h.accepting id' inv haccepting
      refine ⟨fun hmem => habsent (Finmap.mem_erase.mp hmem).2, hinv.trans ?_⟩
      rfl
  | takeoff _ hfree _ htables => exact h.takeoff hfree htables hallowed
  | restart hstarts => exact hstarts.sound h.wellFormed.db

/-- It holds in every run. -/
theorem Reaches.sound (h : Reaches env clientId key s) : Sound key s :=
  h.invariant (fun _ ⟨_, _, hdb, hstarts⟩ => hstarts.sound hdb) fun _ _ _ hs hallowed hstep => hs.step hallowed hstep

/-- **Memory and database agree in every run** of handlers, clients that come, go and take off, and
restarts at any moment: a block, a chest or an inventory whose lock is free is in memory what the
database will have for the current seed when it has caught up, a chest or an inventory that was never
stored to being the one of a new world; only a client that is not there has none in memory. -/
theorem upToDate (env : Externals) (clientId : ℕ → Uuid) {s : Sessions} {key : Key} (h : Reaches env clientId key s)
    (hfree : ¬ s.threads.Held key.lock) :
    (∃ id, key = .inv id ∧ id ∉ s.threads.shared.clients) ∨
      (s.threads.shared.memory key).or key.fresh =
        (s.threads.shared.caughtUp.row s.threads.shared.currseed key).or key.fresh := by
  rcases h.sound.ordered.free hfree rfl with ⟨⟨id, rfl⟩, hnone⟩ | hsame
  · exact .inl ⟨id, rfl, memory_view_eq_none.mp hnone⟩
  · exact .inr hsame

/-- The server is not restarted while a statement for the key is outstanding, nor, for a block or a
chest, under another seed than its first. -/
def Saved (key : Key) (s : Sessions) (event : SessionEvent) : Prop :=
  event = .restart → s.threads.shared.Executed s.threads.shared.currseed key ∧
    ((∃ id, key = .inv id) ∨ s.threads.shared.currseed = initialseed)

/-- An event at a time when the lock of a key is free changes nothing that is kept there, if it is
not a restart that loses it. -/
theorem Sound.kept_step (h : Sound key s) {event : SessionEvent} (hallowed : Allowed key s event)
    (hfree : ¬ s.threads.Held key.lock) (hsaved : Saved key s event) (hstep : Happens env clientId s event s') :
    kept key s'.threads.shared = kept key s.threads.shared := by
  cases hstep with
  | thread hthread => rw [kept, view_step_of_free h.ordered hfree hthread, kept]
  | read _ => rfl
  | letIn _ _ => rfl
  | leave _ => rfl
  | takeoff _ _ _ htables =>
    cases key with
    | inv id => rw [kept, kept, view_takeoff_inv]
    | chest pos => exact hallowed.elim
    | block spot =>
      obtain ⟨hrow, hexecuted⟩ := hallowed
      rw [kept, kept, behind_takeoff_block htables hrow hexecuted]
      exact (h.ordered.free hfree rfl).resolve_left fun hinv => nomatch hinv.1
  | restart hstarts =>
    obtain ⟨hexecuted, hseed⟩ := hsaved rfl
    have hrow : s.threads.shared.db.row initialseed key = s.threads.shared.db.row s.threads.shared.currseed key := by
      rcases hseed with ⟨id, rfl⟩ | hseed
      · rfl
      · rw [hseed]
    rw [kept, (hstarts.spec h.wellFormed.db).1, hrow, ← row_caughtUp_of_notWritten hexecuted, kept, view]

/-- The states that are reached from a state while no handler holds the lock of a key, and no restart
loses what is kept there. -/
abbrev Quietly (env : Externals) (clientId : ℕ → Uuid) (key : Key) (s : Sessions) : Sessions → Prop :=
  Reached (· = s) (fun s event => Allowed key s event ∧ ¬ s.threads.Held key.lock ∧ Saved key s event)
    (Happens env clientId)

/-- **What is kept at a key is changed by handlers under its lock only**: when no handler holds the
lock in a part of a run, and no restart in it loses what is kept there, then what is in memory at its
end is what was there at its beginning. Clients may leave, be let in again and take off, and other
clients do what they like. -/
theorem memory_kept (env : Externals) (clientId : ℕ → Uuid) {s s' : Sessions} {key : Key}
    (h : Reaches env clientId key s) (hrun : Quietly env clientId key s s') (hfree : ¬ s.threads.Held key.lock)
    (hfree' : ¬ s'.threads.Held key.lock)
    (hthere : ∀ id, key = .inv id → id ∈ s.threads.shared.clients ∧ id ∈ s'.threads.shared.clients) :
    (s'.threads.shared.memory key).or key.fresh = (s.threads.shared.memory key).or key.fresh := by
  have hrun' : Reaches env clientId key s' ∧ kept key s'.threads.shared = kept key s.threads.shared := by
    refine @Reached.invariant _ _ _ _ _
      (fun s₁ : Sessions => Reaches env clientId key s₁ ∧ kept key s₁.threads.shared = kept key s.threads.shared) _ hrun
      ?_ ?_
    · rintro _ rfl
      exact ⟨h, rfl⟩
    · rintro s₁ s₂ event ⟨hreach, hkept⟩ ⟨hallowed, hfree₁, hsaved⟩ hstep
      exact ⟨hreach.step event hallowed hstep, (hreach.sound.kept_step hallowed hfree₁ hsaved hstep).trans hkept⟩
  have hmemory : ∀ {s₁ : Sessions}, Reaches env clientId key s₁ → ¬ s₁.threads.Held key.lock →
      (∀ id, key = .inv id → id ∈ s₁.threads.shared.clients) →
      (s₁.threads.shared.memory key).or key.fresh = kept key s₁.threads.shared := by
    intro s₁ hreach hfree₁ hthere₁
    rcases hreach.sound.ordered.free hfree₁ rfl with ⟨⟨id, rfl⟩, hnone⟩ | hsame
    · exact absurd (hthere₁ id rfl) (memory_view_eq_none.mp hnone)
    · exact hsame
  rw [hmemory hrun'.1 hfree' fun id hid => (hthere id hid).2, hrun'.2,
    ← hmemory h hfree fun id hid => (hthere id hid).1]

/-! ### A client that comes back -/

/-- A server is started with an empty database. -/
theorem exists_initial : ∃ s : Sessions, Initial .plain s ∧ s.accepting = none ∧ (∀ t, s.threads.running t = none) ∧
    s.threads.shared.clients = ∅ ∧ s.threads.shared.queuedSql = [] ∧ s.threads.shared.sqlThread = none ∧
    s.threads.shared.db.invs = ∅ ∧
    ∃ disk : Disk, disk.files = s.files ∧ ∀ seed, disk.table seed = s.threads.shared.db.userdatamap seed := by
  obtain ⟨order⟩ := ChunkSystem.mapOrder_exists
  set empty : ChunkSystem := { ChunkSystem.barren with userdatamap := ∅, nonuserdatamap := ∅ } with hempty
  set saving := empty.saveCurrentWorldToFile order initialseed ⟨∅, ∅⟩ worldPath with hsaving
  have hpt := ChunkSystem.lookup_files_save order initialseed ⟨∅, ∅⟩ empty worldPath "pt"
  have hseed2 : saving.files.lookup (worldPath, "seed2") = none := by
    rw [hsaving, ChunkSystem.lookup_files_save]
    simp
  have hspec := ChunkSystem.loadSeedBlocksPlanet_spec .plain order initialseed saving empty worldPath _
    (hpt.trans (if_pos rfl))
  rw [hseed2] at hspec
  obtain ⟨cs, disk', hload, -, -⟩ := hspec
  have hrows : ∀ m : HashMap IVec3 (Bool × List Slot), Nonempty (HashMap.Iter m) := HashMap.Iter.exists
  have hchests : ∃ reg, loadChestRows (fun m => (hrows m).some) ∅ = some reg ∧ _ :=
    lookup_loadChestRows fun pos row h => by simp at h
  obtain ⟨reg, hreg, -⟩ := hchests
  have hfiles : (⟨∅, ∅⟩ : Disk).files = ∅ := rfl
  have hstarts : Starts .plain ⟨fun _ => ∅, fun _ => ∅, ∅, ∅⟩ ∅ _ := .intro hfiles (fun _ => rfl) rfl hload hreg
  refine ⟨_, ⟨_, _, ⟨?_, ?_⟩, hstarts⟩, rfl, fun _ => rfl, rfl, rfl, rfl, rfl, _, rfl, fun _ => rfl⟩
  · intro seed pos row h
    simp at h
  · intro id row h
    simp at h

theorem Reaches.thread (h : Reaches env clientId key s) {m : Threads}
    (hstep : Monitor.Step act (Offers clientId) SqlStep s.threads m) :
    Reaches env clientId key { s with threads := m } :=
  h.step .thread trivial (.thread hstep)

theorem not_held_of_idle {m : Threads} (hidle : ∀ t, m.running t = none) (l : Lock) : ¬ m.Held l := by
  rintro ⟨t, as, h⟩
  rw [hidle t] at h
  cases h

/-- A message that puts three of item seven into the first slot. -/
def putsThree : Message :=
  ⟨.ChestInvUpdate, .finite 0, .finite 0, .finite 0, .finite 7, 0, 1, .finite 3, (0, 0), ⟨0, 0, 0⟩, false⟩

/-- A client that is let in, and gets three of item seven. -/
theorem exists_three : ∃ s : Sessions, Reaches .plain (fun _ => (0, 0)) (.inv (0, 0)) s ∧ s.accepting = none ∧
    (∀ t, s.threads.running t = none) ∧ s.threads.shared.outstanding = [] ∧
    s.threads.shared.memory (.inv (0, 0)) = some (.slots (STARTINGITEMS.set 0 (7, 3))) ∧
    ∃ disk : Disk, disk.files = s.files ∧ ∀ seed, disk.table seed = s.threads.shared.db.userdatamap seed := by
  obtain ⟨s, hinitial, haccepting, hidle, hclients, hqueue, hsql, hinvs, disk, hfiles, htables⟩ := exists_initial
  have hstart : Reaches .plain (fun _ => (0, 0)) (.inv (0, 0)) s := .start hinitial
  have hload : loadInv (0, 0) s.threads.shared.db = ⟨false, STARTINGITEMS, rfl⟩ := by simp [loadInv, hinvs]
  have hread := hstart.step (SessionEvent.read (0, 0))
    ⟨hclients ▸ Finmap.notMem_empty, by simp [Executed, outstanding, hqueue, hsql]⟩ (.read haccepting)
  have hletIn := hread.step SessionEvent.letIn trivial (.letIn rfl (not_held_of_idle hidle _))
  have henter := Reaches.thread hletIn (.enter (hidle 0) (not_held_of_idle hidle _) ⟨putsThree, rfl⟩)
  have hstore := henter.thread (.act (Function.update_self ..) (by simp [act, withClients]; exact ⟨by decide, rfl⟩))
  have hpush := hstore.thread (.act (Function.update_self ..) (by simp [act]; rfl))
  have hleave := hpush.thread (.leave (Function.update_self ..))
  have hpop := hleave.thread (.own (.pop hsql (congrArg (· ++ [_]) hqueue)))
  have hdone := hpop.thread (.own (.done rfl))
  refine ⟨_, hdone, rfl, ?_, ?_, ?_, disk, hfiles, htables⟩
  · intro t
    by_cases ht : t = 0 <;> simp [withClients, hidle, ht]
  · rfl
  · simp [memory, push, hload]
    rfl

theorem mem_clients_of_memory {v : Value} {id : Uuid} {s : Server} (h : s.memory (.inv id) = some v) : id ∈ s.clients := by
  obtain ⟨cli, hcli, -⟩ := Option.map_eq_some_iff.mp h
  exact Finmap.mem_of_lookup_eq_some hcli

/-- The database has the three. -/
theorem upToDate_three : ∃ s : Sessions, Reaches .plain (fun _ => (0, 0)) (.inv (0, 0)) s ∧
    (s.threads.shared.caughtUp.row s.threads.shared.currseed (.inv (0, 0))).or (Key.fresh (.inv (0, 0))) =
      some (.slots (STARTINGITEMS.set 0 (7, 3))) := by
  obtain ⟨s, hs, -, hidle, -, hthree, -⟩ := exists_three
  refine ⟨s, hs, ?_⟩
  rcases upToDate .plain _ hs (not_held_of_idle hidle (Key.lock (.inv (0, 0)))) with ⟨id, hid, habsent⟩ | hsame
  · cases hid
    exact absurd (mem_clients_of_memory hthree) habsent
  · rw [← hsame, hthree, Option.some_or]

/-- The client leaves, another one takes off, and the first has the three when it comes back. -/
theorem memory_kept_three : ∃ s : Sessions, Reaches .plain (fun _ => (0, 0)) (.inv (0, 0)) s ∧
    ∃ s₁ : Sessions, Happens .plain (fun _ => (0, 0)) s (.leave (0, 0)) s₁ ∧
    ∃ s₂ : Sessions, Happens .plain (fun _ => (0, 0)) s₁ (.takeoff 9) s₂ ∧
    ∃ s₃ : Sessions, Happens .plain (fun _ => (0, 0)) s₂ (.read (0, 0)) s₃ ∧
    ∃ s₄ : Sessions, Happens .plain (fun _ => (0, 0)) s₃ .letIn s₄ ∧
      (s₄.threads.shared.memory (.inv (0, 0))).or (Key.fresh (.inv (0, 0))) =
        some (.slots (STARTINGITEMS.set 0 (7, 3))) := by
  obtain ⟨order⟩ := ChunkSystem.mapOrder_exists
  obtain ⟨s, hs, haccepting, hidle, hsaved, hthree, disk, hfiles, htables⟩ := exists_three
  have hfree := not_held_of_idle hidle (Key.lock (.inv (0, 0)))
  have habsent : ((0, 0) : Uuid) ∉ s.threads.shared.clients.erase (0, 0) := fun h => (Finmap.mem_erase.mp h).1 rfl
  have hstart : Quietly .plain (fun _ => (0, 0)) (.inv (0, 0)) s s := .start rfl
  set s₁ := s.withClients (s.threads.shared.clients.erase (0, 0))
  set s₂ : Sessions := { s₁ with
    threads.shared := (s₁.threads.shared.takeoff .plain order 9 disk).1
    files := (s₁.threads.shared.takeoff .plain order 9 disk).2.files }
  have hleave : Happens .plain (fun _ => (0, 0)) s (.leave (0, 0)) s₁ := .leave hfree
  have htakeoff : Happens .plain (fun _ => (0, 0)) s₁ (.takeoff 9) s₂ :=
    .takeoff (hidle 0) (not_held_of_idle hidle .csys) hfiles htables
  have hread : Happens .plain (fun _ => (0, 0)) s₂ (.read (0, 0)) _ := .read haccepting
  have hletIn : Happens .plain (fun _ => (0, 0))
      { s₂ with accepting := some ((0, 0), loadInv (0, 0) s₂.threads.shared.db) } .letIn _ := .letIn rfl hfree
  have hrun₁ := hstart.step (SessionEvent.leave (0, 0)) ⟨trivial, hfree, (nomatch ·)⟩ hleave
  have hrun₂ := hrun₁.step (SessionEvent.takeoff 9) ⟨trivial, hfree, (nomatch ·)⟩ htakeoff
  have hexecuted : Executed 9 (.inv (0, 0)) s.threads.shared := by simp [Executed, hsaved]
  have hrun₃ := hrun₂.step (SessionEvent.read (0, 0)) ⟨⟨habsent, hexecuted⟩, hfree, (nomatch ·)⟩ hread
  have hrun₄ := hrun₃.step SessionEvent.letIn ⟨trivial, hfree, (nomatch ·)⟩ hletIn
  refine ⟨s, hs, _, hleave, _, htakeoff, _, hread, _, hletIn, (memory_kept .plain _ hs hrun₄ hfree hfree ?_).trans ?_⟩
  · rintro id ⟨⟩
    exact ⟨mem_clients_of_memory hthree, Finmap.mem_insert.mpr (.inl rfl)⟩
  · rw [hthree, Option.some_or]

end Sessions

end Distgard
