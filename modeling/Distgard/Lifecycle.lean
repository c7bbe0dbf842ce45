import Distgard.Save

/-!
# Leaving a world and starting another

`exit` empties the pools and queues of a chunk system, and `reset` fills the pools again and
takes up another seed and planet; together they are to leave a system like a fresh one.
`exit` empties ten collections. Five more hold parts of the world left, and it passes them
over: the requests for light, the light, the record of chunks lit, and both block maps.

## What is proved

* `exit_reset_eq` — what the two leave is a fresh system with these five as they were.
* `exit_reset_eq_new_iff` — it is a fresh system, and saves no block of the world left,
  exactly when the five were empty.
-/

namespace Distgard

open Lib

namespace ChunkSystem

/-- Leave the world: empty the pools and queues. -/
def exit (cs : ChunkSystem) : ChunkSystem :=
  { cs with
    chunks := []
    geobank := []
    chunkMemories := []
    takencare := ∅
    finishedGeoQueue := []
    finishedUserGeoQueue := []
    userRebuildRequests := []
    genRebuildRequests := []
    backgroundRebuildRequests := []
    justcollisionmap := ∅ }

/-- Add a slot that holds no chunk. -/
def pushSlot (cs : ChunkSystem) : ChunkSystem :=
  { cs with
    chunks := cs.chunks ++ [⟨cs.geobank.length, false, defaultPos⟩]
    geobank := cs.geobank ++ [⟨defaultPos, Mesh.empty⟩]
    chunkMemories := cs.chunkMemories ++ [⟨false, 0, 0, 0, 0, defaultPos⟩] }

/-- Take up another seed, and add slots unless nothing is drawn here (the current seed, which
`reset` sets as well, is an argument of saving and loading). -/
def reset (env : Externals) (cs : ChunkSystem) (radius : UInt8) (seed : UInt32) (noisetype : ℕ) : ChunkSystem :=
  let cs := { cs with
    radius := radius
    perlin := env.perlinNew seed
    voxelModels := none
    planetType := UInt8.ofNat noisetype }
  if cs.headless then cs else pushSlot^[side radius * side radius] cs

/-- Slots are added at the end, numbered on. -/
theorem iterate_pushSlot (cs : ChunkSystem) (n : ℕ) :
    pushSlot^[n] cs =
      { cs with
        chunks := cs.chunks ++ (List.range n).map fun i => ⟨cs.geobank.length + i, false, defaultPos⟩
        geobank := cs.geobank ++ List.replicate n ⟨defaultPos, Mesh.empty⟩
        chunkMemories := cs.chunkMemories ++ List.replicate n ⟨false, 0, 0, 0, 0, defaultPos⟩ } := by
  induction n with
  | zero => simp
  | succ n ih =>
    rw [Function.iterate_succ_apply', ih, pushSlot]
    simp [List.range_succ, List.replicate_succ', List.append_assoc]

/-- **What leaving and resetting leave**: a fresh system, with the light and the blocks of the
world left. -/
theorem exit_reset_eq (env : Externals) (cs : ChunkSystem) (radius : UInt8) (seed : UInt32) (noisetype : ℕ) :
    cs.exit.reset env radius seed noisetype =
      { new env radius seed noisetype cs.headless with
        lightRebuildRequests := cs.lightRebuildRequests
        lightmap := cs.lightmap
        hashadinitiallightpass := cs.hashadinitiallightpass
        userdatamap := cs.userdatamap
        nonuserdatamap := cs.nonuserdatamap } := by
  cases hh : cs.headless with
  | true => simp [reset, exit, new, hh]
  | false =>
    simp [reset, exit, new, hh, iterate_pushSlot, freshChunks, freshGeobank, freshMemories]

/-- Nothing is left of the world in the collections that `exit` passes over. -/
structure LeftClean (cs : ChunkSystem) : Prop where
  /-- No request for light. -/
  lightRebuildRequests : cs.lightRebuildRequests = []
  /-- No light. -/
  lightmap : cs.lightmap = ∅
  /-- No chunk was lit. -/
  hashad : cs.hashadinitiallightpass = ∅
  /-- No block of the user's. -/
  userdatamap : cs.userdatamap = ∅
  /-- No block of anything else's. -/
  nonuserdatamap : cs.nonuserdatamap = ∅

/-- **Leaving and resetting start clean** — the state is a fresh one, and saving it changes no
block in the table of the new seed — exactly when the five collections were empty. -/
theorem exit_reset_eq_new_iff (env : Externals) (cs : ChunkSystem) (radius : UInt8) (seed : UInt32) (noisetype : ℕ) :
    (cs.exit.reset env radius seed noisetype = new env radius seed noisetype cs.headless ∧
      ∀ order disk path x, (((cs.exit.reset env radius seed noisetype).saveCurrentWorldToFile order seed disk path).table
        seed).lookup x = (disk.table seed).lookup x) ↔ cs.LeftClean := by
  rw [exit_reset_eq]
  constructor
  · rintro ⟨h, -⟩
    exact ⟨congrArg lightRebuildRequests h, congrArg lightmap h, congrArg hashadinitiallightpass h,
      congrArg userdatamap h, congrArg nonuserdatamap h⟩
  · rintro ⟨hlight, hlm, hhashad, hudm, hnudm⟩
    refine ⟨?_, ?_⟩
    · rw [hlight, hlm, hhashad, hudm, hnudm]
      rfl
    · intro order disk path x
      rw [lookup_table_save]
      simp only [hudm, Finmap.lookup_empty, Option.none_or]

/-- A block set in one world is saved into the table of the next. -/
theorem reset_keepsBlock :
    let cs := (new .plain 1 7 0 false).setBlock ⟨0, 5, 0⟩ 8 true
    cs.exit.reset .plain 1 9 1 ≠ new .plain 1 9 1 cs.headless ∧
      Nonempty MapOrder ∧ ∀ order : MapOrder,
        (((cs.exit.reset .plain 1 9 1).saveCurrentWorldToFile order 9 ⟨∅, ∅⟩ "world").table 9).lookup ⟨0, 5, 0⟩ = some 8 := by
  refine ⟨?_, mapOrder_exists, ?_⟩
  · intro h
    rw [exit_reset_eq] at h
    have := congrArg (fun cs => cs.userdatamap.lookup ⟨0, 5, 0⟩) h
    revert this
    decide
  · intro order
    rw [lookup_table_save, exit_reset_eq]
    rfl

end ChunkSystem

end Distgard
