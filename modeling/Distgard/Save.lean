import Distgard.ChunkSystem
import Distgard.Lib.Text

/-!
# Saving and loading

A world is saved in two places: the user's blocks in the database, in the table of the
seed, and the seed and the kind of planet in files of a folder. Loading clears both block
maps, reads the seed from `seed2` if there is one, the blocks from the table of the seed
and the kind of planet from `pt`.

Earlier versions kept the blocks in a file `udm` and the seed in `seed2`. Nothing writes
these files now, but the loader still asks for them: without a file `udm` it takes the
folder for a new one and saves its own state there, in the middle of loading.

## The model

The database is a map from seeds to tables, a table a map from cells to blocks, and the
file system a map from folders and file names to texts. Both block maps and tables are
iterated in an arbitrary order. A text that is not UTF-8, and a database or a disk that
fails, are left out.

## What is proved

* `load_save_iff` — loading what was saved restores the world exactly when the folder has a
  file `udm` or the loading state has the saved kind of planet, and `seed2` is missing or
  leads back to the current seed.
* `load_overwritesPlanet` — in an empty folder the loader's own kind of planet comes back.
-/

namespace Distgard

open Lib

/-- The orders in which block maps are iterated. -/
abbrev MapOrder := ∀ m : HashMap IVec3 UInt32, HashMap.Iter m

/-- What is kept outside the program. -/
structure Disk where
  /-- The tables of the database, by seed. -/
  tables : HashMap UInt32 (HashMap IVec3 UInt32)
  /-- The files, by folder and name. -/
  files : HashMap (String × String) (List Char)

namespace Disk

/-- The table of a seed; it is created if it does not exist. -/
def table (disk : Disk) (seed : UInt32) : HashMap IVec3 UInt32 := (disk.tables.lookup seed).getD ∅

end Disk

/-- Read a word as 32 bits. -/
def parseU32 (word : List Char) : Option UInt32 := (Text.parseUint (2 ^ 32) word).map UInt32.ofNat

/-- Read a word as 8 bits. -/
def parseU8 (word : List Char) : Option UInt8 := (Text.parseUint (2 ^ 8) word).map UInt8.ofNat

namespace ChunkSystem

/-- Save the world into the table of the current seed and into the folder. -/
def saveCurrentWorldToFile (order : MapOrder) (currseed : UInt32) (disk : Disk) (cs : ChunkSystem) (path : String) :
    Disk where
  tables := disk.tables.insert currseed (HashMap.insertAll (order cs.userdatamap).entries (disk.table currseed))
  files := (disk.files.insert (path, "seed") (Text.writeln currseed.toNat)).insert (path, "pt")
    (Text.writeln cs.planetType.toNat)

/-- Take the seed from a line of `seed2`. -/
def readSeed (env : Externals) (s : ChunkSystem × UInt32) (line : List Char) : Except Panic (ChunkSystem × UInt32) :=
  match parseU32 (Text.firstWord line) with
  | some seed => .ok ({ s.1 with perlin := env.perlinNew seed }, seed)
  | none => .error .unwrap

/-- Take the kind of planet from a line of `pt`. -/
def readPlanet (cs : ChunkSystem) (line : List Char) : Except Panic ChunkSystem :=
  match parseU8 (Text.firstWord line) with
  | some pt => .ok { cs with planetType := pt }
  | none => .error .unwrap

/-- Read the seed, the blocks and the kind of planet: the second half of loading. -/
def loadSeedBlocksPlanet (env : Externals) (rows : MapOrder) (currseed : UInt32) (disk : Disk) (cs : ChunkSystem)
    (path : String) : Except Panic (ChunkSystem × UInt32 × Disk) := do
  let (cs, currseed) ← match disk.files.lookup (path, "seed2") with
    | some text => (Text.lines text).foldlM (readSeed env) (cs, currseed)
    | none => .ok (cs, currseed)
  let table := disk.table currseed
  let disk := { disk with tables := disk.tables.insert currseed table }
  let cs := { cs with userdatamap := HashMap.insertAll (rows table).entries cs.userdatamap }
  match disk.files.lookup (path, "pt") with
  | some text => do
    let cs ← (Text.lines text).foldlM readPlanet cs
    return (cs, currseed, disk)
  | none => .error .unwrap

/-- Load the world in the folder: the state, the current seed and the disk afterwards. -/
def loadWorldFromFile (env : Externals) (order rows : MapOrder) (currseed : UInt32) (disk : Disk) (cs : ChunkSystem)
    (path : String) : Except Panic (ChunkSystem × UInt32 × Disk) :=
  let cs := { cs with userdatamap := ∅, nonuserdatamap := ∅ }
  let disk := if (path, "udm") ∈ disk.files then disk else cs.saveCurrentWorldToFile order currseed disk path
  cs.loadSeedBlocksPlanet env rows currseed disk path

/-! ### What is saved -/

section

variable (order : MapOrder) (currseed : UInt32) (disk : Disk) (cs : ChunkSystem) (path : String)

/-- Saving lays the user's blocks over the table of the seed. -/
theorem lookup_table_save (x : IVec3) :
    ((cs.saveCurrentWorldToFile order currseed disk path).table currseed).lookup x =
      (cs.userdatamap.lookup x).or ((disk.table currseed).lookup x) := by
  have htable : (cs.saveCurrentWorldToFile order currseed disk path).table currseed =
      HashMap.insertAll (order cs.userdatamap).entries (disk.table currseed) := by
    rw [Disk.table, saveCurrentWorldToFile, Finmap.lookup_insert, Option.getD_some]
  rw [htable, (order cs.userdatamap).lookup_insertAll]

/-- Saving writes `pt` and `seed`. -/
theorem lookup_files_save (file : String) :
    (cs.saveCurrentWorldToFile order currseed disk path).files.lookup (path, file) =
      if file = "pt" then some (Text.writeln cs.planetType.toNat)
      else if file = "seed" then some (Text.writeln currseed.toNat) else disk.files.lookup (path, file) := by
  rw [saveCurrentWorldToFile, HashMap.lookup_insert', HashMap.lookup_insert']
  simp only [Prod.mk.injEq, true_and]

end

/-! ### Reading lines -/

/-- The seed after the lines of `seed2` have been read, if all of them can be. -/
def seedAfter (currseed : UInt32) (seed2 : Option (List Char)) : Option UInt32 :=
  match seed2 with
  | some text => (Text.lines text).foldlM (fun _ line => parseU32 (Text.firstWord line)) currseed
  | none => some currseed

/-- Reading the lines of `seed2` ends with the seed of the last, or panics. -/
theorem foldlM_readSeed (env : Externals) (ls : List (List Char)) (cs : ChunkSystem) (seed : UInt32) :
    match ls.foldlM (fun _ line => parseU32 (Text.firstWord line)) seed with
    | some seed' => ∃ perlin, ls.foldlM (readSeed env) (cs, seed) = .ok ({ cs with perlin := perlin }, seed')
    | none => ls.foldlM (readSeed env) (cs, seed) = .error .unwrap := by
  induction ls generalizing cs seed with
  | nil => exact ⟨cs.perlin, rfl⟩
  | cons line ls ih =>
    simp only [List.foldlM_cons, readSeed]
    cases parseU32 (Text.firstWord line) with
    | none => rfl
    | some seed₁ =>
      have hrest := ih { cs with perlin := env.perlinNew seed₁ } seed₁
      exact hrest

/-- A kind of planet that was written is read. -/
theorem readPlanet_writeln (cs : ChunkSystem) (pt : UInt8) :
    (Text.lines (Text.writeln pt.toNat)).foldlM readPlanet cs = .ok { cs with planetType := pt } := by
  rw [Text.lines_writeln, List.foldlM_cons, readPlanet, parseU8, Text.parseUint_toDigits pt.toNat_lt]
  simp only [Option.map_some, UInt8.ofNat_toNat]
  rfl

/-! ### The round trip -/

/-- The folder as it is when the blocks are loaded: as the saved world left it, or saved
over by the loading state. -/
theorem lookup_files_loading (order order' : MapOrder) (seed : UInt32) (disk : Disk) (saved loader : ChunkSystem)
    (path file : String) :
    (if (path, "udm") ∈ (saved.saveCurrentWorldToFile order seed disk path).files
      then saved.saveCurrentWorldToFile order seed disk path
      else loader.saveCurrentWorldToFile order' seed (saved.saveCurrentWorldToFile order seed disk path) path).files.lookup
        (path, file) =
      if file = "pt" then some (Text.writeln
        (if (path, "udm") ∈ disk.files then saved.planetType else loader.planetType).toNat)
      else if file = "seed" then some (Text.writeln seed.toNat) else disk.files.lookup (path, file) := by
  have hudm : (path, "udm") ∈ (saved.saveCurrentWorldToFile order seed disk path).files ↔ (path, "udm") ∈ disk.files := by
    rw [← Finmap.lookup_isSome, lookup_files_save, ← Finmap.lookup_isSome]
    simp
  by_cases h : (path, "udm") ∈ disk.files
  · rw [if_pos (hudm.mpr h), lookup_files_save, if_pos h]
  · rw [if_neg (fun h' => h (hudm.mp h')), lookup_files_save, lookup_files_save, if_neg h]
    split
    · rfl
    · split <;> rfl

/-- The blocks of the seed as they are when they are loaded: the saved ones, whether or not the
loading state, which has none, saved over them. -/
theorem table_loading {seed : UInt32} {disk : Disk} {saved loader : ChunkSystem} {path : String} (order order' : MapOrder)
    (htable : ∀ k ∈ disk.table seed, k ∈ saved.userdatamap) (hnone : loader.userdatamap = ∅) :
    (if (path, "udm") ∈ (saved.saveCurrentWorldToFile order seed disk path).files
      then saved.saveCurrentWorldToFile order seed disk path
      else loader.saveCurrentWorldToFile order' seed (saved.saveCurrentWorldToFile order seed disk path) path).table seed =
      saved.userdatamap := by
  apply Finmap.ext_lookup
  intro x
  have hsaved : ((saved.saveCurrentWorldToFile order seed disk path).table seed).lookup x = saved.userdatamap.lookup x := by
    rw [lookup_table_save]
    cases hx : saved.userdatamap.lookup x with
    | some block => rfl
    | none =>
      rw [Option.none_or, Finmap.lookup_eq_none]
      exact fun hmem => Finmap.lookup_eq_none.mp hx (htable x hmem)
  split
  · exact hsaved
  · rw [lookup_table_save, hsaved, hnone, Finmap.lookup_empty, Option.none_or]

/-- What loading does once `pt` can be read: it panics if `seed2` cannot be read, and otherwise
takes the seed from it, the blocks from the table of that seed, and the kind of planet. -/
theorem loadSeedBlocksPlanet_spec (env : Externals) (rows : MapOrder) (currseed : UInt32) (disk : Disk)
    (cs : ChunkSystem) (path : String) (pt : UInt8)
    (hpt : disk.files.lookup (path, "pt") = some (Text.writeln pt.toNat)) :
    match seedAfter currseed (disk.files.lookup (path, "seed2")) with
    | some seed => ∃ cs' disk', cs.loadSeedBlocksPlanet env rows currseed disk path = .ok (cs', seed, disk') ∧
        cs'.userdatamap = HashMap.insertAll (rows (disk.table seed)).entries cs.userdatamap ∧ cs'.planetType = pt
    | none => cs.loadSeedBlocksPlanet env rows currseed disk path = .error .unwrap := by
  simp only [loadSeedBlocksPlanet, hpt, readPlanet_writeln, bind, Except.bind, pure, Except.pure]
  cases disk.files.lookup (path, "seed2") with
  | none => exact ⟨_, _, rfl, rfl, rfl⟩
  | some text =>
    have hread := foldlM_readSeed env (Text.lines text) cs currseed
    simp only [seedAfter]
    split at hread
    · obtain ⟨perlin, hread⟩ := hread
      simp only [hread]
      exact ⟨_, _, rfl, rfl, rfl⟩
    · simp only [hread]

/-- **Loading what was saved**: it restores the user's blocks, the kind of planet and the
current seed exactly when the folder has a file `udm` or the loading state has the saved kind
of planet, and `seed2` is missing or leads back to the current seed. -/
theorem load_save_iff (env : Externals) (order order' rows : MapOrder) (currseed : UInt32) (disk : Disk)
    (saved loader : ChunkSystem) (path : String) (htable : ∀ k ∈ disk.table currseed, k ∈ saved.userdatamap) :
    (∃ cs disk', loadWorldFromFile env order' rows currseed (saved.saveCurrentWorldToFile order currseed disk path)
        loader path = .ok (cs, currseed, disk') ∧
      cs.userdatamap = saved.userdatamap ∧ cs.planetType = saved.planetType) ↔
    ((path, "udm") ∈ disk.files ∨ loader.planetType = saved.planetType) ∧
      seedAfter currseed (disk.files.lookup (path, "seed2")) = some currseed := by
  set loader₀ : ChunkSystem := { loader with userdatamap := ∅, nonuserdatamap := ∅ } with hloader
  set saving := saved.saveCurrentWorldToFile order currseed disk path with hsaving
  set loading := if (path, "udm") ∈ saving.files then saving
    else loader₀.saveCurrentWorldToFile order' currseed saving path with hloading
  set pt := if (path, "udm") ∈ disk.files then saved.planetType else loader.planetType with hpt
  have hfiles := lookup_files_loading order order' currseed disk saved loader₀ path
  have htables : loading.table currseed = saved.userdatamap := table_loading order order' htable rfl
  have hspec := loadSeedBlocksPlanet_spec env rows currseed loading loader₀ path pt ((hfiles "pt").trans (if_pos rfl))
  have hload : loadWorldFromFile env order' rows currseed saving loader path =
      loader₀.loadSeedBlocksPlanet env rows currseed loading path := rfl
  rw [hload]
  have hseed2 : loading.files.lookup (path, "seed2") = disk.files.lookup (path, "seed2") :=
    (hfiles "seed2").trans (by simp)
  rw [hseed2] at hspec
  have hplanet : pt = saved.planetType ↔ (path, "udm") ∈ disk.files ∨ loader.planetType = saved.planetType := by
    rw [hpt]
    by_cases h : (path, "udm") ∈ disk.files
    · simp only [h, if_true, true_or]
    · simp only [h, if_false, false_or]
  rw [← hplanet]
  cases hafter : seedAfter currseed (disk.files.lookup (path, "seed2")) with
  | none =>
    rw [hafter] at hspec
    simp only at hspec
    rw [hspec]
    simp
  | some seed =>
    rw [hafter] at hspec
    obtain ⟨cs', disk', hloaded, hudm, hpt'⟩ := hspec
    rw [hloaded]
    constructor
    · rintro ⟨cs, disk'', he, -, hpl⟩
      cases he
      exact ⟨hpt'.symm.trans hpl, rfl⟩
    · rintro ⟨hpl, he⟩
      cases he
      refine ⟨cs', disk', rfl, ?_, hpt'.trans hpl⟩
      rw [hudm, htables]
      apply Finmap.ext_lookup
      intro x
      rw [(rows _).lookup_insertAll, Finmap.lookup_empty, Option.or_none]

/-- Block maps can be iterated. -/
theorem mapOrder_exists : Nonempty MapOrder := ⟨fun m => (HashMap.Iter.exists m).some⟩

/-- A world of the first planet with one block of the user's. -/
def glassWorld : ChunkSystem := barren.setBlock ⟨0, 5, 0⟩ 8 true

/-- Saved into an empty folder, it is loaded as it was by a state of the same planet. -/
theorem load_glassWorld :
    Nonempty MapOrder ∧ ∀ order order' rows : MapOrder, ∃ cs disk',
      loadWorldFromFile .plain order' rows 0 (glassWorld.saveCurrentWorldToFile order 0 ⟨∅, ∅⟩ "world") barren "world" =
        .ok (cs, 0, disk') ∧
      cs.userdatamap = glassWorld.userdatamap ∧ cs.planetType = glassWorld.planetType :=
  ⟨mapOrder_exists, fun order order' rows =>
    (load_save_iff .plain order order' rows 0 ⟨∅, ∅⟩ glassWorld barren "world"
      (fun _ hk => absurd hk Finmap.notMem_empty)).mpr ⟨.inr rfl, rfl⟩⟩

/-- A world of the second planet. -/
def secondPlanet : ChunkSystem := { barren with planetType := 1 }

/-- Saved into an empty folder and loaded by a state of the first planet, the second planet
is the first. -/
theorem load_overwritesPlanet :
    Nonempty MapOrder ∧ (∀ k ∈ (⟨∅, ∅⟩ : Disk).table 0, k ∈ secondPlanet.userdatamap) ∧ secondPlanet.planetType = 1 ∧
      ∀ order order' rows : MapOrder, ∃ cs disk',
        loadWorldFromFile .plain order' rows 0 (secondPlanet.saveCurrentWorldToFile order 0 ⟨∅, ∅⟩ "world") barren
          "world" = .ok (cs, 0, disk') ∧ cs.planetType = 0 := by
  refine ⟨mapOrder_exists, fun _ hk => absurd hk Finmap.notMem_empty, rfl, ?_⟩
  intro order order' rows
  have hfiles := lookup_files_loading order order' 0 ⟨∅, ∅⟩ secondPlanet barren "world"
  obtain ⟨cs, disk', hload, -, hpt⟩ :=
    loadSeedBlocksPlanet_spec .plain rows 0 _ barren "world" 0 ((hfiles "pt").trans (if_pos rfl))
  exact ⟨cs, disk', hload, hpt⟩

end ChunkSystem

end Distgard
