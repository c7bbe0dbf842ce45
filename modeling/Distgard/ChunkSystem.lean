import Distgard.Blocks
import Distgard.Lib.HashMap
import Distgard.Light.LightMap
import Mathlib.Data.Rat.Defs

/-!
# The chunk system

The state of the world as the client keeps it: a pool of slots, each of which can hold the
chunk at some position (`chunks`, and its vertex data in `geobank`), the registry
`takencare` from positions to the slots that hold them, the blocks, the light, and the
queues of what has still to be rebuilt.

## The model

* A block is looked up in the user's map, then in the map of everything else, then in the
  terrain (`blockat`). The two maps are process-wide statics in the source; they are
  fields here.
* What the noise crate computes from a seed is `Perlin`: the block that grows in a cell,
  and the noise that decides where structures stand. That crate, the generator of random
  numbers and the building of vertex data are `Externals`, an argument.
* A call that panics returns the reason in `Except Panic`.
* What the order of a hash set or a generator seeded from the system decides is in
  `Entropy`, an argument of each call.
* Buffers of the graphics library, sound and logging are left out, and with them the
  fields that only they use; so is `generated_chunks`, which nothing reads or writes.
-/

namespace Distgard

open Lib

/-- Why the program panics. -/
inductive Panic where
  /-- An index past the end of a vector. -/
  | index
  /-- `unwrap` of nothing, or of an error. -/
  | unwrap
  deriving DecidableEq, Repr

/-- The seeded noise, by what the chunk code asks of it. -/
structure Perlin where
  /-- The block that grows in a cell. -/
  naturalBlockat : IVec3 → UInt32
  /-- The noise that decides which structure stands at a place. -/
  featureNoise : IVec2 → ℚ

/-- A world of air, without structures. -/
def Perlin.barren : Perlin := ⟨fun _ => 0, fun _ => 0⟩

/-- The accidents of one call. -/
structure Entropy where
  /-- How it iterates hash sets of chunk positions. -/
  chunks : IterOrder IVec2
  /-- How it iterates hash sets of cells. -/
  spots : IterOrder IVec3
  /-- How it iterates hash sets of light sources. -/
  sources : IterOrder (IVec3 × UInt32)
  /-- What a generator seeded from the system draws. -/
  rng : ℕ → UInt32

/-- Hash sets iterated as they are held, a generator that draws zeros. -/
def Entropy.plain : Entropy := ⟨.id, .id, .id, fun _ => 0⟩

/-! ### The parts of the state -/

/-- The vertex data of a chunk: the solid and transparent cubes, the models and the
weather panes (floats as their bits). -/
structure Mesh where
  /-- Solid cubes: positions. -/
  data32 : List UInt32
  /-- Solid cubes: texture coordinates. -/
  data8 : List UInt8
  /-- Solid cubes: light. -/
  data8rgb : List UInt16
  /-- Transparent cubes: positions. -/
  tdata32 : List UInt32
  /-- Transparent cubes: texture coordinates. -/
  tdata8 : List UInt8
  /-- Transparent cubes: light. -/
  tdata8rgb : List UInt16
  /-- Models: vertices. -/
  vdata : List UInt32
  /-- Models: texture coordinates. -/
  uvdata : List UInt32
  /-- Weather panes: vertices. -/
  wvdata : List UInt32
  /-- Weather panes: texture coordinates. -/
  wuvdata : List UInt32
  deriving DecidableEq, Repr

/-- No vertices. -/
def Mesh.empty : Mesh := ⟨[], [], [], [], [], [], [], [], [], []⟩

/-- The vertex data of a slot, and the chunk it is of. -/
structure ChunkGeo where
  /-- The position of the chunk. -/
  pos : IVec2
  /-- The vertex data. -/
  mesh : Mesh
  deriving DecidableEq, Repr

/-- A slot, as the registry knows it. -/
structure ChunkFacade where
  /-- The number of the slot. -/
  geoIndex : ℕ
  /-- It has been rebuilt before. -/
  used : Bool
  /-- The position of the chunk it holds. -/
  pos : IVec2
  deriving DecidableEq, Repr

/-- The news that a slot has been rebuilt: how many vertices there are of each kind. -/
structure ReadyMesh where
  /-- The slot. -/
  geoIndex : ℕ
  /-- The position of the chunk. -/
  newpos : IVec2
  /-- Solid cubes. -/
  newlength : ℤ
  /-- Transparent cubes. -/
  newtlength : ℤ
  /-- Models. -/
  newvlength : ℤ
  /-- Weather panes. -/
  newwvlength : ℤ
  deriving DecidableEq, Repr

/-- What the drawing loop knows of a slot. -/
structure ChunkMemory where
  /-- It has something to draw. -/
  used : Bool
  /-- Solid cubes. -/
  length : ℤ
  /-- Transparent cubes. -/
  tlength : ℤ
  /-- Models. -/
  vlength : ℤ
  /-- Weather panes. -/
  wvlength : ℤ
  /-- The position of the chunk. -/
  pos : IVec2
  deriving DecidableEq, Repr

/-- A block of a structure: where it is in the structure, and which color it has. -/
structure Voxel where
  /-- East. -/
  x : ℤ
  /-- South. -/
  y : ℤ
  /-- Up. -/
  z : ℤ
  /-- The color, taken as the identifier of a block. -/
  colorIndex : UInt8
  deriving DecidableEq, Repr

/-- One part of a structure. -/
structure VoxModel where
  /-- The extent to the east. -/
  sizeX : ℕ
  /-- The extent to the south. -/
  sizeY : ℕ
  /-- The blocks. -/
  voxels : List Voxel
  deriving DecidableEq, Repr

/-- A structure, as read from its file. -/
structure JVoxModel where
  /-- The parts. -/
  models : List VoxModel
  deriving DecidableEq, Repr

/-- The chunk system, with the two block maps. -/
@[ext]
structure ChunkSystem where
  /-- The slots. -/
  chunks : List ChunkFacade
  /-- The vertex data of the slots. -/
  geobank : List ChunkGeo
  /-- The registry: which slot holds the chunk at a position. -/
  takencare : HashMap IVec2 ChunkFacade
  /-- News of rebuilds that the user waits for. -/
  finishedUserGeoQueue : List ReadyMesh
  /-- News of the other rebuilds. -/
  finishedGeoQueue : List ReadyMesh
  /-- Slots to rebuild for the user. -/
  userRebuildRequests : List ℕ
  /-- Slots to rebuild because of terrain generated next to them. -/
  genRebuildRequests : List ℕ
  /-- Slots to light anew and rebuild. -/
  lightRebuildRequests : List ℕ
  /-- Slots to rebuild some time. -/
  backgroundRebuildRequests : List ℕ
  /-- The blocks set by users. -/
  userdatamap : HashMap IVec3 UInt32
  /-- The blocks set by everything else: structures, growth, flowing water. -/
  nonuserdatamap : HashMap IVec3 UInt32
  /-- Cells that collide without holding a block. -/
  justcollisionmap : HashMap IVec3 UInt8
  /-- How many chunks are kept to each side of the camera. -/
  radius : UInt8
  /-- The noise of the world's seed. -/
  perlin : Perlin
  /-- The structures. -/
  voxelModels : Option (List JVoxModel)
  /-- What the drawing loop knows of the slots. -/
  chunkMemories : List ChunkMemory
  /-- The kind of planet. -/
  planetType : UInt8
  /-- Nothing is drawn here. -/
  headless : Bool
  /-- The chunks that have been lit at least once. -/
  hashadinitiallightpass : HashMap IVec2 Bool
  /-- The light. -/
  lightmap : LightMap

/-- What the model leaves open: other crates, and the building of vertex data. Every result
holds for all of them. -/
structure Externals where
  /-- The noise of a seed. -/
  perlinNew : UInt32 → Perlin
  /-- What a generator seeded with bytes draws, below `128`, one number after the other. -/
  stdRng : List UInt8 → ℕ → UInt32
  /-- The vertex data of the chunk at a position, given the blocks, the light and the draws
  of a generator seeded from the system. -/
  mesh : (IVec3 → UInt32) → LightMap → IVec2 → (ℕ → UInt32) → Mesh

/-- Worlds of air, generators that draw zeros, chunks without vertices. -/
def Externals.plain : Externals := ⟨fun _ => .barren, fun _ _ => 0, fun _ _ _ _ => .empty⟩

namespace ChunkSystem

/-! ### A fresh system -/

/-- How many slots there are in each of two directions. The sum is taken in 8 bits, as in
a release build; a debug build panics where it wraps, at a radius of `126`. -/
def side (radius : UInt8) : ℕ := (radius * 2 + 5).toNat

/-- The slots of a fresh pool, holding no chunk. -/
def freshChunks (radius : UInt8) : List ChunkFacade :=
  (List.range (side radius * side radius)).map fun i => ⟨i, false, defaultPos⟩

/-- Their vertex data. -/
def freshGeobank (radius : UInt8) : List ChunkGeo :=
  List.replicate (side radius * side radius) ⟨defaultPos, Mesh.empty⟩

/-- What the drawing loop knows of them. -/
def freshMemories (radius : UInt8) : List ChunkMemory :=
  List.replicate (side radius * side radius) ⟨false, 0, 0, 0, 0, defaultPos⟩

/-- A fresh chunk system; a headless one has no slots. -/
def new (env : Externals) (radius : UInt8) (seed : UInt32) (noisetype : ℕ) (headless : Bool) :
    ChunkSystem where
  chunks := if headless then [] else freshChunks radius
  geobank := if headless then [] else freshGeobank radius
  takencare := ∅
  finishedUserGeoQueue := []
  finishedGeoQueue := []
  userRebuildRequests := []
  genRebuildRequests := []
  lightRebuildRequests := []
  backgroundRebuildRequests := []
  userdatamap := ∅
  nonuserdatamap := ∅
  justcollisionmap := ∅
  radius := radius
  perlin := env.perlinNew seed
  voxelModels := none
  chunkMemories := if headless then [] else freshMemories radius
  planetType := UInt8.ofNat noisetype
  headless := headless
  hashadinitiallightpass := ∅
  lightmap := ∅

/-! ### Blocks -/

/-- The block in a cell: the user's, or what was set otherwise, or the terrain's. -/
def _blockat (nonuserdatamap userdatamap : HashMap IVec3 UInt32) (perlin : Perlin) (spot : IVec3) : UInt32 :=
  match userdatamap.lookup spot with
  | some id => id
  | none =>
    match nonuserdatamap.lookup spot with
    | some id => id
    | none => perlin.naturalBlockat spot

/-- The block in a cell. -/
def blockat (cs : ChunkSystem) (spot : IVec3) : UInt32 :=
  _blockat cs.nonuserdatamap cs.userdatamap cs.perlin spot

/-- Set a block: in the user's map, or in the other. -/
def setBlockNoSound (cs : ChunkSystem) (spot : IVec3) (block : UInt32) (userPower : Bool) : ChunkSystem :=
  if userPower then { cs with userdatamap := cs.userdatamap.insert spot block }
  else { cs with nonuserdatamap := cs.nonuserdatamap.insert spot block }

/-- Set a block, with its sound. -/
def setBlock (cs : ChunkSystem) (spot : IVec3) (block : UInt32) (userPower : Bool) : ChunkSystem :=
  cs.setBlockNoSound spot block userPower

/-- A world without a slot, all of air. -/
def barren : ChunkSystem := new .plain 1 0 0 true

/-- A block set by the user is there afterwards. -/
theorem blockat_setBlockNoSound_user (cs : ChunkSystem) (spot : IVec3) (block : UInt32) (x : IVec3) :
    (cs.setBlockNoSound spot block true).blockat x = if x = spot then block else cs.blockat x := by
  simp only [setBlockNoSound, if_true, blockat, _blockat, HashMap.lookup_insert']
  by_cases hx : x = spot <;> simp [hx]

/-- A block set otherwise is there afterwards unless the user has set the cell. -/
theorem blockat_setBlockNoSound_nonuser (cs : ChunkSystem) (spot : IVec3) (block : UInt32) (x : IVec3) :
    (cs.setBlockNoSound spot block false).blockat x =
      if x = spot ∧ spot ∉ cs.userdatamap then block else cs.blockat x := by
  simp only [setBlockNoSound, Bool.false_eq_true, if_false, blockat, _blockat, HashMap.lookup_insert']
  by_cases hx : x = spot
  · subst hx
    cases hu : cs.userdatamap.lookup x with
    | some id => simp [Finmap.mem_iff, hu]
    | none => simp [Finmap.mem_iff, hu]
  · simp [hx]

/-! ### Requests -/

/-- Ask for a slot to be rebuilt. -/
def queueGeoindexRerender (cs : ChunkSystem) (geoIndex : ℕ) (userPower light : Bool) : ChunkSystem :=
  if light then { cs with lightRebuildRequests := cs.lightRebuildRequests ++ [geoIndex] }
  else if userPower then { cs with userRebuildRequests := cs.userRebuildRequests ++ [geoIndex] }
  else { cs with backgroundRebuildRequests := cs.backgroundRebuildRequests ++ [geoIndex] }

/-- Ask for the slot that holds a chunk to be rebuilt, if one does. -/
def queueRerenderWithKey (cs : ChunkSystem) (chunkKey : IVec2) (userPower light : Bool) : ChunkSystem :=
  match cs.takencare.lookup chunkKey with
  | some cf => cs.queueGeoindexRerender cf.geoIndex userPower light
  | none => cs

/-- Ask for the slot that holds the chunk of a cell to be rebuilt, if one does. -/
def queueRerender (cs : ChunkSystem) (spot : IVec3) (userPower light : Bool) : ChunkSystem :=
  cs.queueRerenderWithKey (spotToChunkPos spot) userPower light

/-- The slots that hold the chunks. -/
def slotsOf (cs : ChunkSystem) (keys : List IVec2) : List ℕ :=
  keys.filterMap fun key => (cs.takencare.lookup key).map ChunkFacade.geoIndex

/-- Asking for the chunks of a list one after the other adds their slots to one queue. -/
theorem foldl_queueRerenderWithKey (cs : ChunkSystem) (keys : List IVec2) (userPower light : Bool) :
    keys.foldl (fun cs key => cs.queueRerenderWithKey key userPower light) cs =
      if light then { cs with lightRebuildRequests := cs.lightRebuildRequests ++ cs.slotsOf keys }
      else if userPower then { cs with userRebuildRequests := cs.userRebuildRequests ++ cs.slotsOf keys }
      else { cs with backgroundRebuildRequests := cs.backgroundRebuildRequests ++ cs.slotsOf keys } := by
  induction keys generalizing cs with
  | nil => simp [slotsOf]
  | cons key keys ih =>
    rw [List.foldl_cons, ih]
    unfold queueRerenderWithKey queueGeoindexRerender slotsOf
    cases h : cs.takencare.lookup key with
    | none => simp [h]
    | some cf => cases light <;> cases userPower <;> simp [h]

theorem mem_slotsOf {cs : ChunkSystem} {keys : List IVec2} {i : ℕ} :
    i ∈ cs.slotsOf keys ↔ ∃ key ∈ keys, ∃ cf, cs.takencare.lookup key = some cf ∧ cf.geoIndex = i := by
  simp [slotsOf, List.mem_filterMap]

end ChunkSystem

end Distgard
