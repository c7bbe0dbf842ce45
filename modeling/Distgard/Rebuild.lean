import Distgard.Generate
import Distgard.Light.Lightpass

/-!
# Rebuilding a slot, and moving it

`rebuildIndex` lights the chunk in a slot anew if it is asked to, builds its vertex data,
tells the drawing loop how many vertices there are, and registers the chunk.
`moveAndRebuild` gives a slot a new chunk, generates it and rebuilds the slot; if some slot
holds that chunk already, that slot is rebuilt instead.

## The model

The building of vertex data reads the blocks, the light, the position and a generator
seeded from the system, and writes nothing else: it is `Externals.mesh`.

## What is proved

* `rebuildIndex_spec`, `place_spec`, `generateChunk_spec` — a call that returns changed the
  state as `Rebuilt`, `Placed`, `Generated` say, and nothing else.
* `moveAndRebuild_cases` — a move is a rebuild, or a placing, a generation and a rebuild.
* `rebuildIndex_returns` — a rebuild of a slot of the pool returns.
-/

namespace Distgard

open Lib

/-- A length as a signed 32-bit number. -/
@[irreducible]
def asI32 (n : ℕ) : ℤ := (n : ℤ).bmod (2 ^ 32)

/-- Short lengths fit. -/
theorem asI32_of_lt {n : ℕ} (h : n < 2 ^ 31) : asI32 n = n := by
  unfold asI32
  apply Int.bmod_eq_of_le_mul_two
  · omega
  · omega

/-- The news that a slot was rebuilt. -/
def ReadyMesh.new (index : ℕ) (pos : IVec2) (mesh : Mesh) : ReadyMesh :=
  ⟨index, pos, asI32 mesh.data32.length, asI32 mesh.tdata32.length, asI32 mesh.vdata.length, asI32 mesh.wvdata.length⟩

@[simp] theorem ReadyMesh.geoIndex_new (index : ℕ) (pos : IVec2) (mesh : Mesh) :
    (ReadyMesh.new index pos mesh).geoIndex = index := rfl

@[simp] theorem ReadyMesh.newlength_new (index : ℕ) (pos : IVec2) (mesh : Mesh) :
    (ReadyMesh.new index pos mesh).newlength = asI32 mesh.data32.length := rfl

namespace ChunkSystem

variable (env : Externals) (e : Entropy)

/-- Light the chunk in a slot anew, if asked to. -/
def lightpassIf (cs : ChunkSystem) (light : Bool) (pos : IVec2) : ChunkSystem :=
  if light then cs.lightpassOnChunk e pos else cs

/-- Put the vertex data of the chunk into its slot, tell the drawing loop, and register the
chunk if it is not registered. -/
def publish (cs : ChunkSystem) (index : ℕ) (chunk : ChunkFacade) (geo : ChunkGeo) (userPower : Bool) : ChunkSystem :=
  let mesh := env.mesh cs.blockat cs.lightmap chunk.pos e.rng
  let rm := ReadyMesh.new index chunk.pos mesh
  { cs with
    geobank := cs.geobank.set index { geo with mesh := mesh }
    finishedUserGeoQueue := if userPower then cs.finishedUserGeoQueue ++ [rm] else cs.finishedUserGeoQueue
    finishedGeoQueue := if userPower then cs.finishedGeoQueue else cs.finishedGeoQueue ++ [rm]
    takencare := if chunk.pos ∈ cs.takencare then cs.takencare else cs.takencare.insert chunk.pos chunk }

/-- Rebuild the slot. -/
def rebuildIndex (cs : ChunkSystem) (index : ℕ) (userPower light : Bool) : Except Panic ChunkSystem :=
  match cs.chunks[index]? with
  | none => .error .index
  | some chunk =>
    let chunk := { chunk with used := true }
    let cs := { cs with chunks := cs.chunks.set index chunk }
    let cs := cs.lightpassIf e light chunk.pos
    match cs.geobank[index]? with
    | none => .error .index
    | some geo => .ok (cs.publish env e index chunk geo userPower)

/-- Give the slot the chunk at `cpos`, and forget which it held. -/
def place (cs : ChunkSystem) (index : ℕ) (cpos : IVec2) : Except Panic ChunkSystem :=
  match cs.geobank[index]? with
  | none => .error .index
  | some geo =>
    let takencare := if geo.pos ∈ cs.takencare then cs.takencare.erase geo.pos else cs.takencare
    match cs.chunks[index]? with
    | none => .error .index
    | some chunk => .ok
      { cs with
        takencare := takencare
        geobank := cs.geobank.set index { geo with pos := cpos }
        chunks := cs.chunks.set index { chunk with pos := cpos } }

/-- Move the slot to the chunk at `cpos` and rebuild it, or rebuild the slot that holds that
chunk already. The chunk is lit if it never was. -/
def moveAndRebuild (cs : ChunkSystem) (index : ℕ) (cpos : IVec2) : Except Panic ChunkSystem :=
  match cs.takencare.lookup cpos with
  | none => do
    let cs ← cs.place index cpos
    let cs ← cs.generateChunk env e cpos
    cs.rebuildIndex env e index false (cpos ∉ cs.hashadinitiallightpass)
  | some cf => cs.rebuildIndex env e cf.geoIndex false (cpos ∉ cs.hashadinitiallightpass)

/-! ### What the functions do -/

/-- What a rebuild does: the slot has been rebuilt and has new vertex data, the news is told,
the chunk is registered, and lit anew if that was asked for. Nothing else changes. -/
structure Rebuilt (cs cs' : ChunkSystem) (index : ℕ) (userPower light : Bool) (chunk : ChunkFacade) (geo : ChunkGeo)
    (mesh : Mesh) : Prop where
  /-- The slot is in the pool. -/
  slot : cs.chunks[index]? = some chunk
  /-- It has room for vertex data. -/
  bank : cs.geobank[index]? = some geo
  /-- What changes. -/
  eq : cs' = { cs with
    chunks := cs.chunks.set index { chunk with used := true }
    geobank := cs.geobank.set index { geo with mesh := mesh }
    finishedUserGeoQueue :=
      if userPower then cs.finishedUserGeoQueue ++ [ReadyMesh.new index chunk.pos mesh] else cs.finishedUserGeoQueue
    finishedGeoQueue :=
      if userPower then cs.finishedGeoQueue else cs.finishedGeoQueue ++ [ReadyMesh.new index chunk.pos mesh]
    takencare :=
      if chunk.pos ∈ cs.takencare then cs.takencare else cs.takencare.insert chunk.pos { chunk with used := true }
    lightmap := (cs.lightpassIf e light chunk.pos).lightmap
    hashadinitiallightpass := (cs.lightpassIf e light chunk.pos).hashadinitiallightpass
    userRebuildRequests := (cs.lightpassIf e light chunk.pos).userRebuildRequests }

/-- What placing does. -/
structure Placed (cs cs' : ChunkSystem) (index : ℕ) (cpos : IVec2) (chunk : ChunkFacade) (geo : ChunkGeo) : Prop where
  /-- The slot is in the pool. -/
  slot : cs.chunks[index]? = some chunk
  /-- It has room for vertex data. -/
  bank : cs.geobank[index]? = some geo
  /-- The slot holds the chunk. -/
  eq : cs' = { cs with
    takencare := cs.takencare.erase geo.pos
    geobank := cs.geobank.set index { geo with pos := cpos }
    chunks := cs.chunks.set index { chunk with pos := cpos } }

/-- What generating does: it writes blocks, and asks for rebuilds. -/
structure Generated (cs cs' : ChunkSystem) (rows : List (IVec3 × UInt32)) (slots : List ℕ) : Prop where
  /-- Nothing else changes. -/
  eq : cs' = { cs with
    nonuserdatamap := HashMap.insertAll rows cs.nonuserdatamap
    genRebuildRequests := cs.genRebuildRequests ++ slots }
  /-- The slots asked for are registered. -/
  registered : ∀ i ∈ slots, ∃ p cf, cs.takencare.lookup p = some cf ∧ cf.geoIndex = i

variable {env e} {cs cs' : ChunkSystem} {index : ℕ} {cpos : IVec2}

/-- **A rebuild that returns** did what `Rebuilt` says. -/
theorem rebuildIndex_spec {userPower light : Bool} (h : cs.rebuildIndex env e index userPower light = .ok cs') :
    ∃ chunk geo, Rebuilt e cs cs' index userPower light chunk geo
      (env.mesh cs.blockat (cs.lightpassIf e light chunk.pos).lightmap chunk.pos e.rng) := by
  unfold rebuildIndex at h
  cases hc : cs.chunks[index]? with
  | none => rw [hc] at h; cases h
  | some chunk =>
    rw [hc] at h
    simp only at h
    have hgeo : (({ cs with chunks := cs.chunks.set index { chunk with used := true } } : ChunkSystem).lightpassIf e light
        chunk.pos).geobank = cs.geobank := by unfold lightpassIf; split <;> rfl
    rw [hgeo] at h
    cases hg : cs.geobank[index]? with
    | none => rw [hg] at h; cases h
    | some geo =>
      rw [hg] at h
      cases h
      refine ⟨chunk, geo, hc, hg, ?_⟩
      cases light <;> rfl

/-- A rebuild of a slot of the pool returns. -/
theorem rebuildIndex_returns (env : Externals) (e : Entropy) (hchunk : index < cs.chunks.length)
    (hgeo : index < cs.geobank.length)
    (userPower light : Bool) : ∃ cs', cs.rebuildIndex env e index userPower light = .ok cs' := by
  unfold rebuildIndex
  rw [List.getElem?_eq_getElem hchunk]
  have hbank : ∀ chunks pos, (({ cs with chunks := chunks } : ChunkSystem).lightpassIf e light pos).geobank =
      cs.geobank := by intro chunks pos; unfold lightpassIf; split <;> rfl
  simp only [hbank, List.getElem?_eq_getElem hgeo]
  exact ⟨_, rfl⟩

theorem place_spec (h : cs.place index cpos = .ok cs') : ∃ chunk geo, Placed cs cs' index cpos chunk geo := by
  unfold place at h
  cases hg : cs.geobank[index]? with
  | none => rw [hg] at h; cases h
  | some geo =>
    cases hc : cs.chunks[index]? with
    | none => rw [hg, hc] at h; cases h
    | some chunk =>
      rw [hg, hc] at h
      cases h
      refine ⟨chunk, geo, hc, hg, ?_⟩
      split
      · rfl
      · next hnot =>
        have herase : cs.takencare.erase geo.pos = cs.takencare := Finmap.ext_lookup fun k => by
          rw [HashMap.lookup_erase']
          split
          · next hk => rw [hk, Finmap.lookup_eq_none.mpr hnot]
          · rfl
        rw [herase]

theorem generateChunk_spec (h : cs.generateChunk env e cpos = .ok cs') :
    ∃ rows slots, Generated cs cs' rows slots := by
  obtain ⟨out, hout⟩ := generateChunk_eq env cs cpos
  rw [hout e cs ⟨rfl, rfl, rfl⟩] at h
  cases out with
  | error p => cases h
  | ok rows =>
    cases h
    refine ⟨rows, _, rfl, ?_⟩
    intro i hi
    obtain ⟨key, -, cf, hcf, hi⟩ := mem_slotsOf.mp hi
    exact ⟨key, cf, hcf, hi⟩

/-- **What a move does**: it rebuilds the slot that holds the chunk already, or it places,
generates and rebuilds. -/
theorem moveAndRebuild_cases (h : cs.moveAndRebuild env e index cpos = .ok cs') :
    (∃ cf, cs.takencare.lookup cpos = some cf ∧
      cs.rebuildIndex env e cf.geoIndex false (cpos ∉ cs.hashadinitiallightpass) = .ok cs') ∨
    cs.takencare.lookup cpos = none ∧ ∃ placed generated, cs.place index cpos = .ok placed ∧
      placed.generateChunk env e cpos = .ok generated ∧
      generated.rebuildIndex env e index false (cpos ∉ cs.hashadinitiallightpass) = .ok cs' := by
  unfold moveAndRebuild at h
  cases ht : cs.takencare.lookup cpos with
  | some cf => rw [ht] at h; exact .inl ⟨cf, rfl, h⟩
  | none =>
    rw [ht] at h
    cases hp : cs.place index cpos with
    | error p => rw [hp] at h; cases h
    | ok placed =>
      rw [hp] at h
      obtain ⟨chunk, geo, -, -, hplaced⟩ := place_spec hp
      cases hg : placed.generateChunk env e cpos with
      | error p => simp only [bind, Except.bind, hg] at h; cases h
      | ok generated =>
        obtain ⟨rows, slots, hgen, -⟩ := generateChunk_spec hg
        simp only [bind, Except.bind, hg] at h
        have hhashad : generated.hashadinitiallightpass = cs.hashadinitiallightpass := by rw [hgen, hplaced]
        rw [hhashad] at h
        exact .inr ⟨rfl, placed, generated, rfl, hg, h⟩

/-- In a dark world of air a move to a chunk that no slot holds places the chunk, builds its
vertex data and registers it, and asks for nothing; a light block is not seen if the chunk has
been lit before. -/
theorem moveAndRebuild_of_dark {chunk : ChunkFacade} {geo : ChunkGeo} (hnone : cs.takencare.lookup cpos = none)
    (hslot : cs.chunks[index]? = some chunk) (hbank : cs.geobank[index]? = some geo) (hair : cs.perlin = .barren)
    (hdark : cs.lightmap = ∅) (hlight : cpos ∉ cs.hashadinitiallightpass → ∀ x, Blocks.isLight (cs.blockat x) = false) :
    cs.moveAndRebuild env e index cpos = .ok
      { cs with
        takencare := (cs.takencare.erase geo.pos).insert cpos { chunk with pos := cpos, used := true }
        geobank := cs.geobank.set index ⟨cpos, env.mesh cs.blockat ∅ cpos e.rng⟩
        chunks := cs.chunks.set index { chunk with pos := cpos, used := true }
        finishedGeoQueue := cs.finishedGeoQueue ++ [ReadyMesh.new index cpos (env.mesh cs.blockat ∅ cpos e.rng)]
        hashadinitiallightpass := if cpos ∈ cs.hashadinitiallightpass then cs.hashadinitiallightpass
          else cs.hashadinitiallightpass.insert cpos true } := by
  obtain ⟨placed, hplaced⟩ : ∃ placed, cs.place index cpos = .ok placed := by
    unfold place
    rw [hbank, hslot]
    exact ⟨_, rfl⟩
  obtain ⟨chunk', geo', hslot', hbank', hp⟩ := place_spec hplaced
  obtain rfl : chunk = chunk' := Option.some.inj (hslot.symm.trans hslot')
  obtain rfl : geo = geo' := Option.some.inj (hbank.symm.trans hbank')
  obtain ⟨cs', hcs'⟩ : ∃ cs', placed.rebuildIndex env e index false (cpos ∉ cs.hashadinitiallightpass) = .ok cs' := by
    apply rebuildIndex_returns
    · rw [hp]
      simpa using (List.getElem?_eq_some_iff.mp hslot).1
    · rw [hp]
      simpa using (List.getElem?_eq_some_iff.mp hbank).1
  have hmove : cs.moveAndRebuild env e index cpos = .ok cs' := by
    have hhashad : placed.hashadinitiallightpass = cs.hashadinitiallightpass := by rw [hp]
    unfold moveAndRebuild
    rw [hnone, hplaced]
    simp only [bind, Except.bind]
    rw [generateChunk_barren env e (by rw [hp]; exact hair) cpos]
    simp only [hhashad]
    exact hcs'
  rw [hmove]
  obtain ⟨held, geo', hheld, hgeo', heq⟩ := rebuildIndex_spec hcs'
  have hh : held = { chunk with pos := cpos } := by
    rw [hp] at hheld
    simpa [hslot, (List.getElem?_eq_some_iff.mp hslot).1] using hheld.symm
  have hg : geo' = { geo with pos := cpos } := by
    rw [hp] at hgeo'
    simpa [hbank, (List.getElem?_eq_some_iff.mp hbank).1] using hgeo'.symm
  have hnot : cpos ∉ cs.takencare.erase geo.pos := by
    rw [← Finmap.lookup_eq_none, HashMap.lookup_erase', hnone, ite_self]
  have hair : placed.blockat = cs.blockat := by rw [hp]; rfl
  rw [heq, hh, hg, hair]
  by_cases hmem : cpos ∈ cs.hashadinitiallightpass
  · simp [hmem, lightpassIf, hp, hnot, hdark]
  · have hpass : placed.lightpassOnChunk e cpos = _ :=
      lightpassOnChunk_of_dark e (by rw [hp]; exact hdark) (by rw [hp]; exact hlight hmem)
    simp [hmem, lightpassIf, hpass]
    simp [hp, hnot, hdark]

end ChunkSystem

end Distgard
