import Distgard.Inventory
import Distgard.Vec
import Distgard.Lib.HashMap
import Distgard.Lib.Run

/-!
# Saving and loading chests

The chests that have been opened are kept in one registry, by their cells. The database has
a table of chests for every seed. A save lays the registry over the table of the current
seed; a load lays the table of a seed over the registry. Neither removes anything, and the
registry is not emptied when the seed changes.

## The model

The database is a map from seeds to tables, a table a map from cells to chests. A registry
and a table are iterated in an arbitrary order, which the event carries. A database that
fails is left out. `ChestHistory` adds to the chests which seed was loaded last, and under
which seeds each chest has been placed or loaded.

## What is proved

* `chestRegistry_staticLoad_iff` — a load ends with the table it read exactly when the
  registry had no other chest.
* `chests_belong` — as long as the registry has no other chest at a load, and chests are
  opened and saved only under the seed that was loaded last, the registry is the loaded
  table, a save followed by a load restores it, and no save writes a foreign chest.
* `chests_leak` — without that, a chest of one world is found and saved in another.
-/

namespace Distgard

open Lib

/-- The orders in which maps of chests are iterated. -/
abbrev ChestOrder := ∀ m : HashMap IVec3 ChestInventory, HashMap.Iter m

/-- The chests in memory and in the database. -/
structure Chests where
  /-- The chests in memory. -/
  chestRegistry : HashMap IVec3 ChestInventory
  /-- The tables of the database, by seed. -/
  tables : HashMap UInt32 (HashMap IVec3 ChestInventory)
  /-- The current seed. -/
  currseed : UInt32

namespace Chests

/-- The table of a seed; it is created if it does not exist. -/
def table (s : Chests) (seed : UInt32) : HashMap IVec3 ChestInventory := (s.tables.lookup seed).getD ∅

/-- Save the chest at a cell into the table of the current seed. -/
def saveOneChestToFile (key : IVec3) (s : Chests) : Chests where
  chestRegistry := s.chestRegistry
  tables := s.tables.insert s.currseed (match s.chestRegistry.lookup key with
    | some chest => (s.table s.currseed).insert key chest
    | none => s.table s.currseed)
  currseed := s.currseed

/-- Save all chests into the table of the current seed. -/
def saveCurrentChestsToFile (order : ChestOrder) (s : Chests) : Chests where
  chestRegistry := s.chestRegistry
  tables := s.tables.insert s.currseed (HashMap.insertAll (order s.chestRegistry).entries (s.table s.currseed))
  currseed := s.currseed

/-- Load the chests of a seed into the registry. -/
def staticLoadChestsFromFile (rows : ChestOrder) (seed : UInt32) (s : Chests) : Chests where
  chestRegistry := HashMap.insertAll (rows (s.table seed)).entries s.chestRegistry
  tables := s.tables.insert seed (s.table seed)
  currseed := s.currseed

/-- Load the chests of the current seed into the registry. -/
def loadChestsFromFile (rows : ChestOrder) (s : Chests) : Chests := s.staticLoadChestsFromFile rows s.currseed

/-- Open the chest at a cell: it is registered if it is not. -/
def openChest (pos : IVec3) (s : Chests) : Chests where
  chestRegistry := if pos ∈ s.chestRegistry then s.chestRegistry else s.chestRegistry.insert pos .empty
  tables := s.tables
  currseed := s.currseed

/-- Change what a registered chest holds. -/
def editChest (pos : IVec3) (chest : ChestInventory) (s : Chests) : Chests where
  chestRegistry := if pos ∈ s.chestRegistry then s.chestRegistry.insert pos chest else s.chestRegistry
  tables := s.tables
  currseed := s.currseed

/-! ### Tables -/

theorem table_of_tables {s : Chests} {tables : HashMap UInt32 (HashMap IVec3 ChestInventory)} {seed seed' : UInt32}
    {t : HashMap IVec3 ChestInventory} (h : s.tables = tables.insert seed t) :
    s.table seed' = if seed' = seed then t else (tables.lookup seed').getD ∅ := by
  rw [table, h, HashMap.lookup_insert']
  split
  · rfl
  · rfl

theorem table_saveOneChestToFile (key : IVec3) (s : Chests) (seed : UInt32) :
    (s.saveOneChestToFile key).table seed = if seed = s.currseed then
      match s.chestRegistry.lookup key with
      | some chest => (s.table s.currseed).insert key chest
      | none => s.table s.currseed
    else s.table seed := table_of_tables rfl

theorem table_saveCurrentChestsToFile (order : ChestOrder) (s : Chests) (seed : UInt32) :
    (s.saveCurrentChestsToFile order).table seed = if seed = s.currseed
      then HashMap.insertAll (order s.chestRegistry).entries (s.table s.currseed) else s.table seed := table_of_tables rfl

theorem table_staticLoadChestsFromFile (rows : ChestOrder) (seed : UInt32) (s : Chests) (seed' : UInt32) :
    (s.staticLoadChestsFromFile rows seed).table seed' = s.table seed' := by
  rw [table_of_tables (s := s.staticLoadChestsFromFile rows seed) rfl]
  split
  · next h => rw [h]
  · rfl

/-- **A load** ends with the table it read exactly when the registry had no other chest. -/
theorem chestRegistry_staticLoad_iff (rows : ChestOrder) (seed : UInt32) (s : Chests) :
    (s.staticLoadChestsFromFile rows seed).chestRegistry = s.table seed ↔ ∀ pos ∈ s.chestRegistry, pos ∈ s.table seed :=
  (rows (s.table seed)).insertAll_eq_iff s.chestRegistry

/-- A save ends with the registry in the table exactly when the table had no other chest. -/
theorem table_save_iff (order : ChestOrder) (s : Chests) :
    (s.saveCurrentChestsToFile order).table s.currseed = s.chestRegistry ↔
      ∀ pos ∈ s.table s.currseed, pos ∈ s.chestRegistry := by
  rw [table_saveCurrentChestsToFile, if_pos rfl]
  exact (order s.chestRegistry).insertAll_eq_iff (s.table s.currseed)

end Chests

/-! ### Histories -/

/-- What can happen to the chests. -/
inductive ChestEvent where
  /-- Another seed becomes current. -/
  | setSeed (seed : UInt32)
  /-- A chest is opened. -/
  | openChest (pos : IVec3)
  /-- The slots of a chest change. -/
  | editChest (pos : IVec3) (chest : ChestInventory)
  /-- One chest is saved. -/
  | saveOne (key : IVec3)
  /-- All chests are saved. -/
  | save (order : ChestOrder)
  /-- The chests of the current seed are loaded. -/
  | load (rows : ChestOrder)
  /-- The chests of a seed are loaded. -/
  | staticLoad (rows : ChestOrder) (seed : UInt32)

namespace ChestEvent

/-- What the event does to the chests. -/
def apply (s : Chests) : ChestEvent → Chests
  | setSeed seed => { s with currseed := seed }
  | openChest pos => s.openChest pos
  | editChest pos chest => s.editChest pos chest
  | saveOne key => s.saveOneChestToFile key
  | save order => s.saveCurrentChestsToFile order
  | load rows => s.loadChestsFromFile rows
  | staticLoad rows seed => s.staticLoadChestsFromFile rows seed

/-- The seed whose chests the event loads. -/
def loads (s : Chests) : ChestEvent → Option UInt32
  | load _ => some s.currseed
  | staticLoad _ seed => some seed
  | _ => none

/-- The event writes the chest at a cell into the table of a seed. -/
def Writes (s : Chests) (seed : UInt32) (pos : IVec3) : ChestEvent → Prop
  | saveOne key => seed = s.currseed ∧ pos = key ∧ pos ∈ s.chestRegistry
  | save _ => seed = s.currseed ∧ pos ∈ s.chestRegistry
  | _ => False

/-- The event places the chest at a cell, or loads it, under a seed. -/
def Introduces (s : Chests) (pos : IVec3) (seed : UInt32) (event : ChestEvent) : Prop :=
  match event with
  | openChest pos' => pos = pos' ∧ pos ∉ s.chestRegistry ∧ seed = s.currseed
  | _ => event.loads s = some seed ∧ pos ∈ s.table seed

end ChestEvent

/-- The chests, with what has happened to them. -/
structure ChestHistory where
  /-- The chests. -/
  chests : Chests
  /-- The seed that was loaded last. -/
  loaded : Option UInt32
  /-- The chest at a cell has been placed or loaded under a seed. -/
  known : IVec3 → UInt32 → Prop

namespace ChestHistory

/-- A program that has just started, with any database. -/
def Fresh (h : ChestHistory) : Prop := h.chests.chestRegistry = ∅ ∧ h.loaded = none ∧ ∀ pos seed, ¬ h.known pos seed

/-- Let an event happen. -/
def step (h : ChestHistory) (event : ChestEvent) : ChestHistory where
  chests := event.apply h.chests
  loaded := (event.loads h.chests).or h.loaded
  known := fun pos seed => h.known pos seed ∨ event.Introduces h.chests pos seed

/-- A load finds no chest in the registry that its table does not have, and a chest is
registered or saved only under the seed that was loaded last. -/
def AtHome (h : ChestHistory) : ChestEvent → Prop
  | .setSeed _ => True
  | .openChest pos => pos ∈ h.chests.chestRegistry ∨ h.loaded = some h.chests.currseed
  | .editChest _ _ => True
  | .saveOne _ => h.loaded = some h.chests.currseed
  | .save _ => h.loaded = some h.chests.currseed
  | .load _ => ∀ pos ∈ h.chests.chestRegistry, pos ∈ h.chests.table h.chests.currseed
  | .staticLoad _ seed => ∀ pos ∈ h.chests.chestRegistry, pos ∈ h.chests.table seed

/-- The histories that start in some histories and in which every event is allowed. -/
abbrev From (initial : ChestHistory → Prop) (allowed : ChestHistory → ChestEvent → Prop) : ChestHistory → Prop :=
  Reached initial allowed fun h event h' => h' = h.step event

/-- Every registered chest was placed or loaded under the seed loaded last, and every chest in
the table of that seed is registered. -/
structure Belongs (h : ChestHistory) : Prop where
  /-- Registered chests were placed or loaded under the seed loaded last. -/
  known : ∀ pos ∈ h.chests.chestRegistry, ∃ seed, h.loaded = some seed ∧ h.known pos seed
  /-- The chests in the table of the seed loaded last are registered. -/
  registered : ∀ seed, h.loaded = some seed → ∀ pos ∈ h.chests.table seed, pos ∈ h.chests.chestRegistry

/-- A load whose table has all registered chests: afterwards the registry is that table, and
its chests are known under that seed. -/
theorem belongs_staticLoad {h : ChestHistory} (rows : ChestOrder) {seed : UInt32} {known : IVec3 → UInt32 → Prop}
    (hhome : ∀ pos ∈ h.chests.chestRegistry, pos ∈ h.chests.table seed)
    (hknown : ∀ pos ∈ h.chests.table seed, known pos seed) :
    Belongs ⟨h.chests.staticLoadChestsFromFile rows seed, some seed, known⟩ := by
  have hregistry := (Chests.chestRegistry_staticLoad_iff rows seed h.chests).mpr hhome
  constructor
  · intro pos hpos
    rw [hregistry] at hpos
    exact ⟨seed, rfl, hknown pos hpos⟩
  · intro seed' he pos hpos
    cases he
    rw [Chests.table_staticLoadChestsFromFile] at hpos
    rw [hregistry]
    exact hpos

/-- An event that loads nothing, registers chests only under the seed loaded last and puts
only registered chests into its table keeps the chests where they belong. -/
theorem Belongs.of_noLoad {h : ChestHistory} (hh : Belongs h) {event : ChestEvent} (hloads : event.loads h.chests = none)
    (hregistry : ∀ pos, pos ∈ (event.apply h.chests).chestRegistry → pos ∈ h.chests.chestRegistry ∨
      ∃ seed, h.loaded = some seed ∧ event.Introduces h.chests pos seed)
    (hkept : ∀ pos ∈ h.chests.chestRegistry, pos ∈ (event.apply h.chests).chestRegistry)
    (htable : ∀ seed pos, pos ∈ (event.apply h.chests).table seed → pos ∈ h.chests.table seed ∨ pos ∈ h.chests.chestRegistry) :
    Belongs (h.step event) := by
  have hloaded : (h.step event).loaded = h.loaded := by rw [step, hloads, Option.none_or]
  constructor
  · intro pos hpos
    rw [hloaded]
    rcases hregistry pos hpos with hold | ⟨seed, hseed, hnew⟩
    · obtain ⟨seed, hseed, hknown⟩ := hh.known pos hold
      exact ⟨seed, hseed, Or.inl hknown⟩
    · exact ⟨seed, hseed, Or.inr hnew⟩
  · intro seed hseed pos hpos
    rw [hloaded] at hseed
    rcases htable seed pos hpos with hold | hold
    · exact hkept pos (hh.registered seed hseed pos hold)
    · exact hkept pos hold

/-- A chest of a table after a save was there or is registered. -/
theorem mem_table_save {s : Chests} {seed : UInt32} {pos : IVec3} (order : ChestOrder)
    (h : pos ∈ (s.saveCurrentChestsToFile order).table seed) : pos ∈ s.table seed ∨ pos ∈ s.chestRegistry := by
  rw [Chests.table_saveCurrentChestsToFile] at h
  split at h
  · next he =>
    rw [← Finmap.lookup_isSome, (order s.chestRegistry).lookup_insertAll, Option.isSome_or, Bool.or_eq_true,
      Finmap.lookup_isSome, Finmap.lookup_isSome] at h
    rw [he]
    exact h.symm
  · exact Or.inl h

/-- A chest of a table after one chest was saved was there or is registered. -/
theorem mem_table_saveOne {s : Chests} {seed : UInt32} {pos : IVec3} (key : IVec3)
    (h : pos ∈ (s.saveOneChestToFile key).table seed) : pos ∈ s.table seed ∨ pos ∈ s.chestRegistry := by
  rw [Chests.table_saveOneChestToFile] at h
  split at h
  · next he =>
    rw [he]
    split at h
    · next chest hchest =>
      rcases Finmap.mem_insert.mp h with rfl | h
      · exact Or.inr (Finmap.mem_of_lookup_eq_some hchest)
      · exact Or.inl h
    · exact Or.inl h
  · exact Or.inl h

/-- **One event** keeps the chests where they belong, if it is at home. -/
theorem Belongs.step {h : ChestHistory} (hh : Belongs h) {event : ChestEvent} (hhome : h.AtHome event) :
    Belongs (h.step event) := by
  cases event with
  | setSeed seed => exact ⟨fun pos hpos => let ⟨seed, hseed, hknown⟩ := hh.known pos hpos
      ⟨seed, hseed, Or.inl hknown⟩, hh.registered⟩
  | openChest pos =>
    apply hh.of_noLoad rfl
    · intro pos' hpos'
      simp only [ChestEvent.apply, Chests.openChest] at hpos'
      split at hpos'
      · exact Or.inl hpos'
      · next hnew =>
        rcases Finmap.mem_insert.mp hpos' with rfl | hold
        · exact Or.inr ⟨h.chests.currseed, hhome.resolve_left hnew, rfl, hnew, rfl⟩
        · exact Or.inl hold
    · intro pos' hpos'
      simp only [ChestEvent.apply, Chests.openChest]
      split
      · exact hpos'
      · exact Finmap.mem_insert.mpr (Or.inr hpos')
    · exact fun seed pos' hpos' => Or.inl hpos'
  | editChest pos chest =>
    apply hh.of_noLoad rfl
    · intro pos' hpos'
      simp only [ChestEvent.apply, Chests.editChest] at hpos'
      split at hpos'
      · next hold =>
        rcases Finmap.mem_insert.mp hpos' with rfl | hold'
        · exact Or.inl hold
        · exact Or.inl hold'
      · exact Or.inl hpos'
    · intro pos' hpos'
      simp only [ChestEvent.apply, Chests.editChest]
      split
      · exact Finmap.mem_insert.mpr (Or.inr hpos')
      · exact hpos'
    · exact fun seed pos' hpos' => Or.inl hpos'
  | saveOne key =>
    exact hh.of_noLoad rfl (fun pos hpos => Or.inl hpos) (fun pos hpos => hpos)
      (fun seed pos hpos => mem_table_saveOne key hpos)
  | save order =>
    exact hh.of_noLoad rfl (fun pos hpos => Or.inl hpos) (fun pos hpos => hpos)
      (fun seed pos hpos => mem_table_save order hpos)
  | load rows => exact belongs_staticLoad rows hhome (fun pos hpos => Or.inr ⟨rfl, hpos⟩)
  | staticLoad rows seed => exact belongs_staticLoad rows hhome (fun pos hpos => Or.inr ⟨rfl, hpos⟩)

/-- In a program that has just started no chest is registered. -/
theorem Fresh.belongs {h : ChestHistory} (hfresh : h.Fresh) : Belongs h := by
  obtain ⟨hregistry, hloaded, -⟩ := hfresh
  constructor
  · intro pos hpos
    rw [hregistry] at hpos
    exact absurd hpos Finmap.notMem_empty
  · intro seed hseed
    rw [hloaded] at hseed
    cases hseed

/-- In every history at home the chests are where they belong. -/
theorem From.belongs {h : ChestHistory} (hh : From Fresh AtHome h) : Belongs h := by
  apply hh.invariant
  · exact fun _ hfresh => hfresh.belongs
  · rintro h _ event hbelongs hhome rfl
    exact hbelongs.step hhome

/-- A table changes only where the event writes. -/
theorem table_step (h : ChestHistory) (event : ChestEvent) {seed : UInt32}
    (hwrites : ∀ pos, ¬ event.Writes h.chests seed pos) : (h.step event).chests.table seed = h.chests.table seed := by
  cases event with
  | setSeed seed' => rfl
  | openChest pos => rfl
  | editChest pos chest => rfl
  | saveOne key =>
    refine (Chests.table_saveOneChestToFile key h.chests seed).trans ?_
    split
    · next he =>
      rw [he]
      split
      · next chest hchest => exact absurd ⟨he, rfl, Finmap.mem_of_lookup_eq_some hchest⟩ (hwrites key)
      · rfl
    · rfl
  | save order =>
    refine (Chests.table_saveCurrentChestsToFile order h.chests seed).trans ?_
    split
    · next he =>
      have hnone : ∀ pos v, (pos, v) ∉ (order h.chests.chestRegistry).entries := fun pos v hpos =>
        hwrites pos ⟨he, Finmap.mem_of_lookup_eq_some (((order h.chests.chestRegistry).mem_iff pos v).mp hpos)⟩
      rw [he]
      exact Finmap.ext_lookup fun pos => HashMap.lookup_insertAll_of_notMem (hnone pos) _
    · rfl
  | load rows => exact Chests.table_staticLoadChestsFromFile rows _ h.chests seed
  | staticLoad rows seed' => exact Chests.table_staticLoadChestsFromFile rows seed' h.chests seed

/-- Events that write nothing into a table leave it alone. -/
theorem table_from {initial : ChestHistory → Prop} {allowed : ChestHistory → ChestEvent → Prop} {seed : UInt32}
    {t : HashMap IVec3 ChestInventory} {h : ChestHistory} (hinitial : ∀ h, initial h → h.chests.table seed = t)
    (hwrites : ∀ h event pos, allowed h event → ¬ event.Writes h.chests seed pos) (hh : From initial allowed h) :
    h.chests.table seed = t := by
  apply hh.invariant
  · exact hinitial
  · rintro h _ event ht hallowed rfl
    rw [table_step h event (fun pos => hwrites h event pos hallowed), ht]

/-- **Chests belong to their world** in every history at home: a load ends with the table it
read; what a load reads after a save, with nothing written in between, is what was saved; and
a save writes only chests that were placed or loaded under its seed. -/
theorem chests_belong (h : ChestHistory) (hh : From Fresh AtHome h) :
    (∀ event seed, h.AtHome event → event.loads h.chests = some seed →
      (h.step event).chests.chestRegistry = (h.step event).chests.table seed) ∧
    (∀ order, h.AtHome (.save order) →
      (∀ rows, (h.step (.save order)).AtHome (.load rows)) ∧
      ∀ h', From (· = h.step (.save order))
          (fun h' event => h'.AtHome event ∧ ∀ pos, ¬ event.Writes h'.chests h.chests.currseed pos) h' →
        ∀ event, h'.AtHome event → event.loads h'.chests = some h.chests.currseed →
          (h'.step event).chests.chestRegistry = h.chests.chestRegistry) ∧
    ∀ event, h.AtHome event → ∀ seed pos, event.Writes h.chests seed pos → h.known pos seed := by
  have hbelongs := From.belongs hh
  have hload : ∀ (h : ChestHistory) event seed, h.AtHome event → event.loads h.chests = some seed →
      (h.step event).chests.chestRegistry = h.chests.table seed := by
    intro h event seed hhome hloads
    cases event with
    | load rows =>
      cases hloads
      exact (Chests.chestRegistry_staticLoad_iff rows _ h.chests).mpr hhome
    | staticLoad rows seed' =>
      cases hloads
      exact (Chests.chestRegistry_staticLoad_iff rows _ h.chests).mpr hhome
    | _ => cases hloads
  refine ⟨?_, ?_, ?_⟩
  · intro event seed hhome hloads
    rw [hload h event seed hhome hloads]
    apply (table_step h event _).symm
    cases event with
    | load rows => exact fun pos => id
    | staticLoad rows seed' => exact fun pos => id
    | _ => cases hloads
  · intro order hsave
    have hsaved : (h.step (.save order)).chests.table h.chests.currseed = h.chests.chestRegistry :=
      (Chests.table_save_iff order h.chests).mpr (hbelongs.registered h.chests.currseed hsave)
    constructor
    · intro rows pos hpos
      have hpos' : pos ∈ (h.step (.save order)).chests.table h.chests.currseed := by
        rw [hsaved]
        exact hpos
      exact hpos'
    · intro h' hh' event hhome hloads
      rw [hload h' event _ hhome hloads]
      apply table_from _ _ hh'
      · rintro _ rfl
        exact hsaved
      · exact fun h event pos hallowed => hallowed.2 pos
  · intro event hhome seed pos hwrites
    have hknown : h.loaded = some h.chests.currseed → pos ∈ h.chests.chestRegistry → h.known pos h.chests.currseed := by
      intro hloaded hpos
      obtain ⟨seed', hseed', hknown⟩ := hbelongs.known pos hpos
      rw [hloaded] at hseed'
      cases hseed'
      exact hknown
    cases event with
    | saveOne key =>
      obtain ⟨rfl, -, hpos⟩ := hwrites
      exact hknown hhome hpos
    | save order =>
      obtain ⟨rfl, hpos⟩ := hwrites
      exact hknown hhome hpos
    | _ => cases hwrites

/-- A program that has just started, without a database. -/
def justStarted : ChestHistory where
  chests := { chestRegistry := ∅, tables := ∅, currseed := 0 }
  loaded := none
  known := fun _ _ => False

theorem justStarted_fresh : justStarted.Fresh := ⟨rfl, rfl, fun _ _ => id⟩

/-- The history in which the chests of the first world are loaded and a chest is opened. -/
def oneChest (order : ChestOrder) : ChestHistory := (justStarted.step (.load order)).step (.openChest ⟨0, 5, 0⟩)

/-- Loading leaves the tables of a program without a database empty. -/
theorem table_oneChest (order : ChestOrder) (seed : UInt32) : (oneChest order).chests.table seed = ∅ := by
  have hopen : (oneChest order).chests.table seed = (justStarted.step (.load order)).chests.table seed := rfl
  have hload : (justStarted.step (.load order)).chests.table seed = justStarted.chests.table seed :=
    Chests.table_staticLoadChestsFromFile order 0 justStarted.chests seed
  have hstart : justStarted.chests.table seed = ∅ := by
    rw [Chests.table, justStarted, Finmap.lookup_empty, Option.getD_none]
  rw [hopen, hload, hstart]

/-- The chest that was opened is registered. -/
theorem mem_oneChest (order : ChestOrder) : (⟨0, 5, 0⟩ : IVec3) ∈ (oneChest order).chests.chestRegistry := by
  have hopen : (oneChest order).chests =
      (justStarted.step (.load order)).chests.openChest ⟨0, 5, 0⟩ := rfl
  rw [hopen, Chests.openChest]
  split
  · next h => exact h
  · exact Finmap.mem_insert.mpr (Or.inl rfl)

/-- Opening a chest in a world that has been loaded is at home. -/
theorem oneChest_atHome (order : ChestOrder) : From Fresh AtHome (oneChest order) := by
  have hload : From Fresh AtHome (justStarted.step (.load order)) := by
    apply Reached.step (.load order) (.start justStarted_fresh) _ rfl
    exact fun pos hpos => absurd hpos Finmap.notMem_empty
  have hhome : AtHome (justStarted.step (.load order)) (.openChest ⟨0, 5, 0⟩) := Or.inr rfl
  exact hload.step (.openChest ⟨0, 5, 0⟩) hhome rfl

/-- One chest, saved and loaded, is there as it was. -/
theorem chests_belong_oneChest :
    Nonempty ChestOrder ∧ ∀ order : ChestOrder, (⟨0, 5, 0⟩ : IVec3) ∈ (oneChest order).chests.chestRegistry ∧
      (((oneChest order).step (.save order)).step (.load order)).chests.chestRegistry =
        (oneChest order).chests.chestRegistry := by
  refine ⟨⟨fun m => (HashMap.Iter.exists m).some⟩, fun order => ⟨mem_oneChest order, ?_⟩⟩
  obtain ⟨hload, hrestored⟩ := (chests_belong (oneChest order) (oneChest_atHome order)).2.1 order rfl
  exact hrestored _ (.start rfl) (.load order) (hload order) rfl

/-- **A chest of one world leaks into another**: when the seed changes, the chest is in the
registry after the other world's chests are loaded, though not in its table, and the next save
writes it there, though it was neither placed nor loaded under that seed. -/
theorem chests_leak :
    Nonempty ChestOrder ∧ ∀ order : ChestOrder, ∃ h, From Fresh (fun _ _ => True) h ∧
      (h.step (.load order)).chests.chestRegistry ≠ (h.step (.load order)).chests.table 1 ∧
      (h.step (.load order)).chests.currseed = 1 ∧
      ChestEvent.Writes (h.step (.load order)).chests 1 ⟨0, 5, 0⟩ (.save order) ∧
      ¬ (h.step (.load order)).known ⟨0, 5, 0⟩ 1 := by
  refine ⟨⟨fun m => (HashMap.Iter.exists m).some⟩, fun order => ⟨(oneChest order).step (.setSeed 1), ?_, ?_⟩⟩
  · have hload : From Fresh (fun _ _ => True) (justStarted.step (.load order)) :=
      (Reached.start justStarted_fresh).step (.load order) trivial rfl
    exact (hload.step (.openChest ⟨0, 5, 0⟩) trivial rfl).step (.setSeed 1) trivial rfl
  have htable : ((oneChest order).step (.setSeed 1)).chests.table 1 = ∅ := table_oneChest order 1
  have htable' : (((oneChest order).step (.setSeed 1)).step (.load order)).chests.table 1 = ∅ :=
    (Chests.table_staticLoadChestsFromFile order 1 _ 1).trans htable
  have hmem : (⟨0, 5, 0⟩ : IVec3) ∈
      (((oneChest order).step (.setSeed 1)).step (.load order)).chests.chestRegistry := by
    have hregistry : (((oneChest order).step (.setSeed 1)).step (.load order)).chests.chestRegistry =
        HashMap.insertAll (order (((oneChest order).step (.setSeed 1)).chests.table 1)).entries
          (oneChest order).chests.chestRegistry := rfl
    rw [hregistry, ← Finmap.lookup_isSome, HashMap.Iter.lookup_insertAll, Option.isSome_or,
      Finmap.lookup_isSome.mpr (mem_oneChest order), Bool.or_true]
  refine ⟨?_, rfl, ⟨rfl, hmem⟩, ?_⟩
  · intro he
    rw [he, htable'] at hmem
    exact Finmap.notMem_empty hmem
  · rintro ((((hstart | hload) | hopen) | hseed) | hload)
    · exact hstart
    · exact Finmap.notMem_empty (hload.2 : (⟨0, 5, 0⟩ : IVec3) ∈ justStarted.chests.table 1)
    · have hseed : (1 : UInt32) = 0 := hopen.2.2
      exact absurd hseed (by decide)
    · cases hseed.1
    · have hnone := hload.2
      rw [htable] at hnone
      exact Finmap.notMem_empty hnone

end ChestHistory

end Distgard
