import Distgard.Edit
import Distgard.Lib.Run

/-!
# Light and streaming

Light requests name slots, and slots move; what is asked for a chunk that no slot holds is
not asked at all; and a chunk that was lit once is not lit anew when it comes back. This
module says what is left of the light blocks' light when edits, moves and the serving of
light requests happen in any order.

## The model

The chunks that have been lit are those of `hashadinitiallightpass`. The light of a chunk is
`UpToDate` if its light blocks are lit and no other cell of it is an origin; `LitBut` says that
the light of all chunks that have been lit is, but for a set of stale ones. An edit, a stamp, a
rebuild each change the stale set in a way of its own, and the invariant of the runs is that
the stale chunks are `awaiting` a light request of the slot that holds them.

## What is proved

* `LitBut.lightpassOnChunk`, `LitBut.rebuild` — what a pass and a rebuild do to the stale set.
* `Tended.edit`, `Tended.move`, `Tended.serve` — an event that is heard keeps the invariant.
* `light_survives` — in every run in which each event is `Heard`, once no light request is left
  the light blocks of the loaded chunks are lit and no other cell of them is an origin.
* `lampSetWhileAway` — a lamp set in a chunk that is away for a while stays dark.
-/

namespace Distgard

open Lib LightMap

/-- The light of a chunk is up to date with its light blocks. -/
structure UpToDate (lm : LightMap) (blockat : IVec3 → UInt32) (pos : IVec2) : Prop where
  /-- A light block has light of its color. -/
  lit : ∀ o, spotToChunkPos o = pos → Shines blockat o → lm.Ray o o (Blocks.getLightColor (blockat o))
  /-- Light comes from light blocks. -/
  origin : ∀ o x v, spotToChunkPos o = pos → lm.Ray x o v → Shines blockat o

/-- Where light can be, the cell has the block it had, or neither is a light. -/
def LightKept (blockat blockat' : IVec3 → UInt32) (x : IVec3) : Prop :=
  0 ≤ x.y ∧ x.y < CH_H → blockat' x = blockat x ∨ Blocks.isLight (blockat x) = false ∧ Blocks.isLight (blockat' x) = false

theorem LightKept.shines_iff {blockat blockat' : IVec3 → UInt32} {x : IVec3} (h : LightKept blockat blockat' x) :
    Shines blockat' x ↔ Shines blockat x := by
  apply and_congr_right
  intro hy
  rcases h hy with heq | ⟨hold, hnew⟩
  · rw [heq]
  · rw [hold, hnew]

/-- What keeps the rays and the light blocks of a chunk keeps its light up to date. -/
theorem UpToDate.congr {lm lm' : LightMap} {blockat blockat' : IVec3 → UInt32} {pos : IVec2} (h : UpToDate lm blockat pos)
    (hown : ∀ o, spotToChunkPos o = pos → ∀ x, lm'.own o x = lm.own o x)
    (hkept : ∀ o, spotToChunkPos o = pos → LightKept blockat blockat' o) : UpToDate lm' blockat' pos := by
  have hray : ∀ o, spotToChunkPos o = pos → ∀ x v, lm'.Ray x o v ↔ lm.Ray x o v := fun o ho x v => by
    rw [ray_iff_own, ray_iff_own, hown o ho]
  refine ⟨?_, ?_⟩
  · intro o ho hs
    have hold := (hkept o ho).shines_iff.mp hs
    rw [hray o ho]
    rcases hkept o ho hs.1 with heq | ⟨hnot, -⟩
    · rw [heq]
      exact h.lit o ho hold
    · rw [hold.2] at hnot
      cases hnot
  · intro o x v ho hr
    exact (hkept o ho).shines_iff.mpr (h.origin o x v ho ((hray o ho x v).mp hr))

/-- **A pass** brings the light of its chunk up to date. -/
theorem upToDate_lightpassOnChunk (e : Entropy) {cs : ChunkSystem} (h : WellLit cs.lightmap) (pos : IVec2) :
    UpToDate (cs.lightpassOnChunk e pos).lightmap cs.blockat pos := by
  have hown := own_lightpassOnChunk e h pos
  refine ⟨?_, ?_⟩
  · intro o ho hs
    rw [ray_iff_own, hown, if_pos ho, sheds_iff]
    exact ⟨hs, 0, Wave.arrive_zero_iff.mpr rfl, rfl⟩
  · intro o x v ho hr
    rw [ray_iff_own, hown, if_pos ho, sheds_iff] at hr
    exact hr.1

namespace ChunkSystem

/-- The light of the chunks that have been lit is up to date, but for the chunks of a set. -/
structure LitBut (cs : ChunkSystem) (stale : Set IVec2) : Prop where
  /-- The light is well formed. -/
  wellLit : WellLit cs.lightmap
  /-- A loaded chunk has been lit. -/
  loaded : ∀ p ∈ cs.takencare, p ∈ cs.hashadinitiallightpass
  /-- What is not stale is up to date. -/
  upToDate : ∀ p ∈ cs.hashadinitiallightpass, p ∉ stale → UpToDate cs.lightmap cs.blockat p
  /-- A chunk that has not been lit gives no light. -/
  dark : ∀ o x v, cs.lightmap.Ray x o v → spotToChunkPos o ∈ cs.hashadinitiallightpass

/-- The chunks whose slots have light requests. -/
def awaiting (cs : ChunkSystem) : Set IVec2 := {p | ∃ i ∈ cs.lightRebuildRequests, cs.registry.posOf i = some p}

variable {env : Externals} {e : Entropy} {cs cs' : ChunkSystem} {stale : Set IVec2} {index : ℕ} {cpos : IVec2}
  {spot : IVec3} {block : UInt32} {neighbors userPower automata : Bool}

theorem LitBut.mono {stale' : Set IVec2} (h : cs.LitBut stale) (hsub : stale ⊆ stale') : cs.LitBut stale' :=
  ⟨h.wellLit, h.loaded, fun p hp hn => h.upToDate p hp fun hs => hn (hsub hs), h.dark⟩

/-- Blocks may change where the light blocks stay, or in chunks that are stale or have not been
lit; the registry may lose chunks, and gain chunks that have been lit. -/
theorem LitBut.congr (h : cs.LitBut stale) (hlm : cs'.lightmap = cs.lightmap)
    (hhad : cs'.hashadinitiallightpass = cs.hashadinitiallightpass)
    (hloaded : ∀ p ∈ cs'.takencare, p ∈ cs.hashadinitiallightpass)
    (hkept : ∀ o, spotToChunkPos o ∈ cs.hashadinitiallightpass → spotToChunkPos o ∉ stale →
      LightKept cs.blockat cs'.blockat o) : cs'.LitBut stale := by
  refine ⟨hlm ▸ h.wellLit, ?_, ?_, ?_⟩
  · intro p hp
    rw [hhad]
    exact hloaded p hp
  · intro p hp hn
    rw [hhad] at hp
    rw [hlm]
    apply (h.upToDate p hp hn).congr
    · intro o _ x
      rfl
    · intro o ho
      subst ho
      exact hkept o hp hn
  · intro o x v hr
    rw [hhad]
    rw [hlm] at hr
    exact h.dark o x v hr

/-- **A pass** brings the light of its chunk up to date, and keeps that of the others. -/
theorem LitBut.lightpassOnChunk (h : cs.LitBut stale) (e : Entropy) (pos : IVec2) :
    (cs.lightpassOnChunk e pos).LitBut {p ∈ stale | p ≠ pos} := by
  have hmem : ∀ p, p ∈ (cs.lightpassOnChunk e pos).hashadinitiallightpass ↔ p = pos ∨ p ∈ cs.hashadinitiallightpass :=
    fun p => Finmap.mem_insert
  have hown := own_lightpassOnChunk e h.wellLit pos
  refine ⟨h.wellLit.lightpassOnChunk e pos, ?_, ?_, ?_⟩
  · intro p hp
    rw [hmem]
    exact .inr (h.loaded p hp)
  · intro p hp hn
    by_cases hpos : p = pos
    · rw [hpos]
      exact upToDate_lightpassOnChunk e h.wellLit pos
    · -- the light of another chunk is as it was
      have hold := h.upToDate p (((hmem p).mp hp).resolve_left hpos) fun hs => hn ⟨hs, hpos⟩
      apply hold.congr
      · intro o ho x
        rw [hown, if_neg (ho ▸ hpos)]
      · intro o _ _
        exact .inl rfl
  · intro o x v hray
    rw [hmem]
    by_cases hpos : spotToChunkPos o = pos
    · exact .inl hpos
    · rw [ray_iff_own, hown, if_neg hpos, ← ray_iff_own] at hray
      exact .inr (h.dark o x v hray)

/-- **A rebuild** keeps what is up to date, and brings the light of its chunk up to date if it is
lit anew. A chunk that is not lit anew must have been lit. -/
theorem LitBut.rebuild {light : Bool} {chunk : ChunkFacade} (h : cs.LitBut stale)
    (hr : cs.rebuildIndex env e index userPower light = .ok cs') (hslot : cs.chunks[index]? = some chunk)
    (hlight : light = false → chunk.pos ∈ cs.hashadinitiallightpass) :
    cs'.LitBut {p ∈ stale | light = true → p ≠ chunk.pos} := by
  obtain ⟨chunk', geo, hslot', -, heq⟩ := rebuildIndex_spec hr
  obtain rfl : chunk = chunk' := Option.some.inj (hslot.symm.trans hslot')
  have htaken : ∀ p ∈ cs'.takencare, p = chunk.pos ∨ p ∈ cs.takencare := by
    intro p hp
    rw [heq] at hp
    simp only at hp
    split at hp
    · exact .inr hp
    · exact Finmap.mem_insert.mp hp
  -- the light after the rebuild is that after the pass, if there is one
  have hpass : (cs.lightpassIf e light chunk.pos).LitBut {p ∈ stale | light = true → p ≠ chunk.pos} ∧
      ∀ p, p = chunk.pos ∨ p ∈ cs.takencare → p ∈ (cs.lightpassIf e light chunk.pos).hashadinitiallightpass := by
    unfold lightpassIf
    cases light with
    | false =>
      refine ⟨h.mono fun p hp => ⟨hp, fun hf => absurd hf (by decide)⟩, ?_⟩
      rintro p (rfl | hp)
      · exact hlight rfl
      · exact h.loaded p hp
    | true =>
      refine ⟨(h.lightpassOnChunk e chunk.pos).mono fun p hp => ⟨hp.1, fun _ => hp.2⟩, ?_⟩
      intro p hp
      exact Finmap.mem_insert.mpr (hp.imp_right (h.loaded p))
  have hblock : (cs.lightpassIf e light chunk.pos).blockat = cs.blockat := by
    unfold lightpassIf
    split <;> rfl
  refine hpass.1.congr (by rw [heq]) (by rw [heq]) (fun p hp => hpass.2 p (htaken p hp)) fun o _ _ _ => .inl ?_
  rw [hblock, heq]
  rfl

/-! ### Events -/

/-- What can happen. -/
inductive Event where
  /-- A block is set, and rebuilds are asked for. -/
  | edit (spot : IVec3) (block : UInt32) (neighbors userPower automata : Bool)
  /-- A slot is moved to a chunk. -/
  | move (index : ℕ) (cpos : IVec2)
  /-- The first light request is served. -/
  | serve (userPower : Bool)

/-- An event happens. -/
inductive Happens (env : Externals) : ChunkSystem → Event → ChunkSystem → Prop
  /-- An edit. -/
  | edit (e : Entropy) (cs : ChunkSystem) (spot : IVec3) (block : UInt32) (neighbors userPower automata : Bool) :
      Happens env cs (.edit spot block neighbors userPower automata)
        (cs.setBlockAndQueueRerender e spot block neighbors userPower automata)
  /-- A move. -/
  | move {cs cs' : ChunkSystem} {index : ℕ} {cpos : IVec2} (e : Entropy) :
      cs.moveAndRebuild env e index cpos = .ok cs' → Happens env cs (.move index cpos) cs'
  /-- The first light request is taken from the queue and served. -/
  | serve {cs cs' : ChunkSystem} {index : ℕ} {requests : List ℕ} {userPower : Bool} (e : Entropy) :
      cs.lightRebuildRequests = index :: requests →
      rebuildIndex env e { cs with lightRebuildRequests := requests } index userPower true = .ok cs' →
      Happens env cs (.serve userPower) cs'

/-- A fresh system, whose structures have been loaded or not. -/
def Fresh (env : Externals) (cs : ChunkSystem) : Prop :=
  ∃ radius seed noisetype headless models, cs = { new env radius seed noisetype headless with voxelModels := models }

/-- The structures of a chunk leave the light blocks as they are, but for cells whose chunks
will be lit anyway: those that have not been lit and those that await it. -/
def Spares (env : Externals) (cs : ChunkSystem) (cpos : IVec2) : Prop :=
  ∀ x b, (cs.stamped env cpos).lookup x = some b → x ∉ cs.userdatamap → 0 ≤ x.y ∧ x.y < CH_H →
    spotToChunkPos x ∈ cs.hashadinitiallightpass → spotToChunkPos x ∉ cs.awaiting →
      b = cs.blockat x ∨ Blocks.isLight (cs.blockat x) = false ∧ Blocks.isLight b = false

/-- The light is told of an event: an edit about light is not of a chunk that has been lit and
is not loaded; a slot that comes to hold another chunk has no light request, and the structures
of that chunk leave the light blocks as they are. -/
def Heard (env : Externals) (cs : ChunkSystem) : Event → Prop
  | .edit spot block _ _ _ => cs.editsLight spot block = true → 0 ≤ spot.y ∧ spot.y < CH_H →
      spotToChunkPos spot ∈ cs.hashadinitiallightpass → spotToChunkPos spot ∈ cs.takencare
  | .move index cpos => cpos ∉ cs.takencare → index ∉ cs.lightRebuildRequests ∧ cs.Spares env cpos
  | .serve _ => True

/-! ### The invariant -/

/-- The chunks whose light is stale await a light request. -/
structure Tended (cs : ChunkSystem) : Prop where
  /-- All other light is up to date. -/
  litBut : cs.LitBut cs.awaiting
  /-- Slots and registry agree. -/
  bijective : cs.registry.Bijective

theorem tended_of_fresh (h : Fresh env cs) : cs.Tended := by
  obtain ⟨radius, seed, noisetype, headless, models, rfl⟩ := h
  refine ⟨⟨.empty, fun p hp => ?_, fun p hp => ?_, fun o x v hr => ?_⟩, bijective_new env radius seed noisetype headless models⟩
  · exact absurd hp Finmap.notMem_empty
  · exact absurd hp Finmap.notMem_empty
  · obtain ⟨r, hr, -⟩ := hr
    cases hr

/-- An edit that is not about light changes no light block, and no edit changes one elsewhere. -/
theorem lightKept_setBlock {x : IVec3} (h : x = spot → cs.editsLight spot block = false) :
    LightKept cs.blockat (cs.setBlock spot block userPower).blockat x := by
  intro _
  have hset : (cs.setBlock spot block userPower).blockat x = cs.blockat x ∨
      x = spot ∧ (cs.setBlock spot block userPower).blockat x = block := by
    cases userPower with
    | true =>
      rw [setBlock, blockat_setBlockNoSound_user]
      split
      · next hx => exact .inr ⟨hx, rfl⟩
      · exact .inl rfl
    | false =>
      rw [setBlock, blockat_setBlockNoSound_nonuser]
      split
      · next hx => exact .inr ⟨hx.1, rfl⟩
      · exact .inl rfl
  refine hset.imp_right fun ⟨hx, hb⟩ => ?_
  have hdark := h hx
  rw [editsLight, Bool.or_eq_false_iff] at hdark
  rw [hb, hx]
  exact ⟨hdark.2, hdark.1⟩

/-- An edit that is heard keeps the system tended: if it is about light, the chunk of the cell
has not been lit or comes to await a light request. -/
theorem Tended.edit (h : cs.Tended) (hheard : cs.Heard env (.edit spot block neighbors userPower automata)) :
    (cs.setBlockAndQueueRerender e spot block neighbors userPower automata).Tended := by
  have hedit := edited e cs spot block neighbors userPower automata
  generalize cs.setBlockAndQueueRerender e spot block neighbors userPower automata = cs' at hedit
  have htaken : cs'.takencare = cs.takencare := congrArg Registry.takencare hedit.registry
  have hgrow : cs.awaiting ⊆ cs'.awaiting := by
    rintro p ⟨i, hi, hpos⟩
    refine ⟨i, ?_, hedit.registry ▸ hpos⟩
    rw [hedit.requests]
    exact List.mem_append_left _ hi
  refine ⟨(h.litBut.mono hgrow).congr hedit.lightmap hedit.hashad (fun p hp => h.litBut.loaded p (htaken ▸ hp))
    fun o hhad hnot => ?_,
    hedit.registry ▸ h.bijective⟩
  rw [hedit.blockat]
  by_cases hy : 0 ≤ o.y ∧ o.y < CH_H
  · apply lightKept_setBlock
    intro ho
    subst ho
    by_contra hl
    rw [Bool.not_eq_false] at hl
    obtain ⟨cf, hcf⟩ := Finmap.mem_iff.mp (hheard hl hy hhad)
    obtain ⟨-, c, hc, hcpos⟩ := h.bijective.held _ cf hcf
    refine hnot ⟨cf.geoIndex, ?_, ?_⟩
    · rw [hedit.requests]
      refine List.mem_append_right _ (mem_slotsOf.mpr ⟨spotToChunkPos o, ?_, cf, hcf, rfl⟩)
      rw [mem_lightKeys, if_pos hl]
      exact self_mem_nearChunks o neighbors
    · rw [hedit.registry, Registry.posOf, hc, Option.map_some, hcpos]
  · exact fun hy' => absurd hy' hy

/-- Serving a light request keeps the system tended: the chunk that does not await one any more
is lit anew. -/
theorem Tended.serve {requests : List ℕ} (h : cs.Tended) (hq : cs.lightRebuildRequests = index :: requests)
    (hr : rebuildIndex env e { cs with lightRebuildRequests := requests } index userPower true = .ok cs') : cs'.Tended := by
  have hregistry := registry_rebuildIndex hr
  have hregistry : cs.registry.rebuild index = some cs'.registry := hregistry
  obtain ⟨chunk, geo, hslot, -, heq⟩ := rebuildIndex_spec hr
  have hrequests : cs'.lightRebuildRequests = requests := by rw [heq]
  have hslot : cs.chunks[index]? = some chunk := hslot
  have hlit : LitBut { cs with lightRebuildRequests := requests } cs.awaiting :=
    h.litBut.congr rfl rfl h.litBut.loaded fun o _ _ _ => .inl rfl
  refine ⟨(hlit.rebuild hr hslot fun hf => absurd hf (by decide)).mono ?_, h.bijective.rebuild hregistry⟩
  rintro p ⟨⟨i, hi, hpos⟩, hne⟩
  refine ⟨i, ?_, ((Registry.rebuild_effect hregistry).1 i).trans hpos⟩
  rw [hq] at hi
  rw [hrequests]
  refine (List.mem_cons.mp hi).resolve_left ?_
  rintro rfl
  rw [Registry.posOf] at hpos
  have hchunk : cs.registry.chunks[i]? = some chunk := hslot
  rw [hchunk] at hpos
  exact hne rfl (Option.some.inj hpos).symm

/-- The stamps of a chunk that spares the light blocks leave the light up to date where it was. -/
theorem lightKept_generateChunk {placed generated : ChunkSystem} {o : IVec3} (hspares : cs.Spares env cpos)
    (hterrain : cs.SameTerrain placed) (huser : placed.userdatamap = cs.userdatamap)
    (hother : placed.nonuserdatamap = cs.nonuserdatamap) (hg : placed.generateChunk env e cpos = .ok generated)
    (hhad : spotToChunkPos o ∈ cs.hashadinitiallightpass) (hnot : spotToChunkPos o ∉ cs.awaiting) :
    LightKept cs.blockat generated.blockat o := by
  intro hy
  obtain ⟨rows, slots, heq, -⟩ := generateChunk_spec hg
  have huser' : generated.userdatamap = cs.userdatamap := by rw [heq, ← huser]
  have hperlin : generated.perlin = cs.perlin := by rw [heq, ← hterrain.perlin]
  have hlookup := lookup_of_generateChunk hterrain hg o
  rw [hother] at hlookup
  have hblock : generated.blockat o = _blockat generated.nonuserdatamap cs.userdatamap cs.perlin o := by
    rw [blockat, huser', hperlin]
  cases hu : cs.userdatamap.lookup o with
  | some id =>
    refine .inl ?_
    rw [hblock, blockat, _blockat, _blockat, hu]
  | none =>
    cases hs : (cs.stamped env cpos).lookup o with
    | none =>
      refine .inl ?_
      rw [hs, Option.none_or] at hlookup
      rw [hblock, blockat, _blockat, _blockat, hlookup]
    | some b =>
      rw [hs, Option.some_or] at hlookup
      have hb : generated.blockat o = b := by rw [hblock, _blockat, hu, hlookup]
      rw [hb]
      exact hspares o b hs (Finmap.lookup_eq_none.mp hu) hy hhad hnot

/-- A move that is heard keeps the system tended: the chunk that was not lit before is lit, and
every light request still is of the slot of the same chunk. -/
theorem Tended.move (h : cs.Tended) (hheard : cs.Heard env (.move index cpos))
    (hmove : cs.moveAndRebuild env e index cpos = .ok cs') : cs'.Tended := by
  have hregistry := registry_moveAndRebuild hmove
  have hb : cs'.registry.Bijective := h.bijective.move hregistry
  have hrequests : cs'.lightRebuildRequests = cs.lightRebuildRequests := by
    rcases moveAndRebuild_cases hmove with ⟨cf, -, hr⟩ | ⟨-, placed, generated, hp, hg, hr⟩
    · obtain ⟨chunk, geo, -, -, heq⟩ := rebuildIndex_spec hr
      rw [heq]
    · obtain ⟨chunk, geo, -, -, hplaced⟩ := place_spec hp
      obtain ⟨rows, slots, hgen, -⟩ := generateChunk_spec hg
      obtain ⟨chunk', geo', -, -, heq⟩ := rebuildIndex_spec hr
      rw [heq, hgen, hplaced]
  have hpos : cs.awaiting ⊆ cs'.awaiting := by
    rintro p ⟨i, hi, hpos⟩
    refine ⟨i, hrequests ▸ hi, ?_⟩
    rcases Registry.move_effect h.bijective hregistry with ⟨-, hslots, -⟩ | ⟨hnot, hslots, -⟩
    · rw [hslots, hpos]
    · rw [hslots, if_neg, hpos]
      rintro rfl
      exact (hheard hnot).1 hi
  refine ⟨?_, hb⟩
  rcases moveAndRebuild_cases hmove with ⟨cf, hcf, hr⟩ | ⟨hnone, placed, generated, hp, hg, hr⟩
  · obtain ⟨-, c, hc, rfl⟩ := h.bijective.held cpos cf hcf
    refine (h.litBut.rebuild hr hc fun hf => ?_).mono fun p hp => hpos hp.1
    simpa using hf
  · obtain ⟨-, hspares⟩ := hheard (Finmap.lookup_eq_none.mp hnone)
    obtain ⟨chunk, geo, hslot, -, hplaced⟩ := place_spec hp
    obtain ⟨rows, slots, hgen, -⟩ := generateChunk_spec hg
    have hterrain : cs.SameTerrain placed := by rw [hplaced]; exact ⟨rfl, rfl, rfl⟩
    have hlit : generated.LitBut cs.awaiting := by
      refine h.litBut.congr ?_ ?_ (fun p hp => ?_) fun o hhad hnot =>
        lightKept_generateChunk hspares hterrain (by rw [hplaced]) (by rw [hplaced]) hg hhad hnot
      · rw [hgen, hplaced]
      · rw [hgen, hplaced]
      · rw [hgen, hplaced] at hp
        exact h.litBut.loaded p (Finmap.mem_erase.mp hp).2
    have hheld : generated.chunks[index]? = some { chunk with pos := cpos } := by
      rw [hgen, hplaced]
      simp only
      rw [Registry.getElem?_set_of_some hslot, if_pos rfl]
    refine (hlit.rebuild hr hheld fun hf => ?_).mono fun p hp => hpos hp.1
    have hhad : generated.hashadinitiallightpass = cs.hashadinitiallightpass := by rw [hgen, hplaced]
    rw [hhad]
    simpa using hf

/-- **Light survives streaming**, in every run of events that are heard: once no light request is
left, a light block of a loaded chunk has light of its color in its own cell, and the light of
the origins in loaded chunks comes from light blocks. Coordinates are below `2 ^ 24`, where
`spotToChunkPos` is the chunk that the source computes. -/
theorem light_survives (h : Reached (Fresh env) (Heard env) (Happens env) cs) (hnone : cs.lightRebuildRequests = [])
    (o : IVec3) (hloaded : spotToChunkPos o ∈ cs.takencare) :
    (Shines cs.blockat o → cs.lightmap.Ray o o (Blocks.getLightColor (cs.blockat o))) ∧
      ∀ x v, cs.lightmap.Ray x o v → Blocks.isLight (cs.blockat o) = true := by
  have htended : cs.Tended := by
    apply h.invariant (fun _ => tended_of_fresh)
    intro cs cs' event ih hheard hhappens
    cases hhappens with
    | edit e => exact ih.edit hheard
    | move e hmove => exact ih.move hheard hmove
    | serve e hq hr => exact ih.serve hq hr
  have hnot : spotToChunkPos o ∉ cs.awaiting := by
    rintro ⟨i, hi, -⟩
    rw [hnone] at hi
    cases hi
  have hfresh := htended.litBut.upToDate _ (htended.litBut.loaded _ hloaded) hnot
  exact ⟨hfresh.lit o rfl, fun x v hr => (hfresh.origin o x v rfl hr).2⟩

/-! ### A lamp set while its chunk is away -/

/-- What a move to a chunk that no slot holds does in a dark world of air. -/
structure MovedInDark (cs cs' : ChunkSystem) (index : ℕ) (cpos : IVec2) : Prop where
  /-- The terrain is air. -/
  barren : cs'.perlin = .barren
  /-- There is no light. -/
  unlit : cs'.lightmap = ∅
  /-- The blocks are as they were. -/
  blockat : cs'.blockat = cs.blockat
  /-- Nothing is asked for. -/
  requests : cs'.lightRebuildRequests = cs.lightRebuildRequests
  /-- The chunk has been lit. -/
  hashad : ∀ p, p ∈ cs'.hashadinitiallightpass ↔ p = cpos ∨ p ∈ cs.hashadinitiallightpass
  /-- Slots and registry agree. -/
  bijective : cs'.registry.Bijective
  /-- There are as many slots. -/
  length : cs'.chunks.length = cs.chunks.length
  /-- The slot holds the chunk. -/
  held : cs'.registry.posOf index = some cpos
  /-- The chunk is registered, and the one that the slot held is not. -/
  taken : ∀ p, p ∈ cs'.takencare ↔ p = cpos ∨ p ∈ cs.takencare ∧ cs.registry.posOf index ≠ some p

theorem exists_movedInDark (cs : ChunkSystem) (index : ℕ) (cpos : IVec2) (hb : cs.registry.Bijective)
    (hindex : index < cs.chunks.length) (hnone : cpos ∉ cs.takencare) (hair : cs.perlin = .barren) (hdark : cs.lightmap = ∅)
    (hlight : cpos ∉ cs.hashadinitiallightpass → ∀ x, Blocks.isLight (cs.blockat x) = false) :
    ∃ cs', cs.moveAndRebuild .plain .plain index cpos = .ok cs' ∧ MovedInDark cs cs' index cpos := by
  have hlength : cs.geobank.length = cs.chunks.length := by simpa [registry] using hb.length
  have hbank : index < cs.geobank.length := by omega
  have hmove : cs.moveAndRebuild .plain .plain index cpos = .ok _ :=
    moveAndRebuild_of_dark (Finmap.lookup_eq_none.mpr hnone) (List.getElem?_eq_getElem hindex)
      (List.getElem?_eq_getElem hbank) hair hdark hlight
  have hregistry := registry_moveAndRebuild hmove
  obtain ⟨hmem, -, -⟩ | ⟨-, hslots, htaken⟩ := Registry.move_effect hb hregistry
  · exact absurd hmem hnone
  · refine ⟨_, hmove, hair, hdark, rfl, rfl, ?_, hb.move hregistry, List.length_set, ?_, htaken⟩
    · intro p
      simp only
      split
      · next hmem =>
        refine ⟨.inr, ?_⟩
        rintro (rfl | hp)
        · exact hmem
        · exact hp
      · exact Finmap.mem_insert
    · rw [hslots, if_pos rfl]

/-- An edit in a chunk that is not loaded asks for no light. -/
theorem slotsOf_lightKeys (hlight : cs.editsLight spot block = true) (haway : spotToChunkPos spot ∉ cs.takencare) :
    cs.slotsOf (cs.lightKeys e spot block false automata) = [] := by
  apply List.eq_nil_iff_forall_not_mem.mpr
  intro i hi
  obtain ⟨key, hkey, cf, hcf, -⟩ := mem_slotsOf.mp hi
  rw [mem_lightKeys, if_pos hlight] at hkey
  rw [List.mem_singleton.mp hkey] at hcf
  exact haway (Finmap.mem_iff.mpr ⟨cf, hcf⟩)

/-- A lamp is set in a chunk that is away, and the chunk comes back: no light request is left,
and the lamp has no light. -/
theorem lampSetWhileAway : ∃ cs, Reached (Fresh .plain) (fun _ _ => True) (Happens .plain) cs ∧
    cs.lightRebuildRequests = [] ∧ spotToChunkPos ⟨3, 5, 3⟩ ∈ cs.takencare ∧ Shines cs.blockat ⟨3, 5, 3⟩ ∧
    ¬ cs.lightmap.Ray ⟨3, 5, 3⟩ ⟨3, 5, 3⟩ (Blocks.getLightColor (cs.blockat ⟨3, 5, 3⟩)) := by
  have hstart : Fresh .plain (new .plain 1 0 0 false) := ⟨1, 0, 0, false, none, rfl⟩
  have hb := (tended_of_fresh hstart).bijective
  obtain ⟨here, hmove, hhere⟩ := exists_movedInDark _ 0 ⟨0, 0⟩ hb (by decide) Finmap.notMem_empty rfl rfl fun _ _ => rfl
  have hlength : 0 < here.chunks.length := by rw [hhere.length]; decide
  have hair : ∀ x, here.blockat x = 0 := fun x => by rw [hhere.blockat]; rfl
  have heast : (⟨1, 0⟩ : IVec2) ∉ here.takencare := by
    rw [hhere.taken]
    rintro (h | ⟨h, -⟩)
    · exact absurd h (by decide)
    · exact Finmap.notMem_empty h
  obtain ⟨away, hmove', haway⟩ := exists_movedInDark here 0 ⟨1, 0⟩ hhere.bijective hlength heast hhere.barren hhere.unlit
    fun _ x => by
      rw [hair]
      rfl
  have hgone : (⟨0, 0⟩ : IVec2) ∉ away.takencare := by
    rw [haway.taken]
    rintro (h | ⟨-, h⟩)
    · exact absurd h (by decide)
    · exact h hhere.held
  have hlamp : away.editsLight ⟨3, 5, 3⟩ 18 = true := by rw [editsLight]; rfl
  have hedit := edited .plain away ⟨3, 5, 3⟩ 18 false true false
  rw [slotsOf_lightKeys hlamp hgone] at hedit
  have hrun : Reached (Fresh .plain) (fun _ _ => True) (Happens .plain)
      (away.setBlockAndQueueRerender .plain ⟨3, 5, 3⟩ 18 false true false) :=
    .step (.edit ⟨3, 5, 3⟩ 18 false true false)
      (.step (.move 0 ⟨1, 0⟩) (.step (.move 0 ⟨0, 0⟩) (.start hstart) trivial (.move .plain hmove)) trivial
        (.move .plain hmove')) trivial (.edit .plain away ⟨3, 5, 3⟩ 18 false true false)
  generalize away.setBlockAndQueueRerender .plain ⟨3, 5, 3⟩ 18 false true false = edit at hedit hrun
  have hregistry := hedit.registry
  have hchunks : edit.chunks = away.chunks := congrArg Registry.chunks hregistry
  have htaken : edit.takencare = away.takencare := congrArg Registry.takencare hregistry
  obtain ⟨back, hmove'', hback⟩ := exists_movedInDark edit 0 ⟨0, 0⟩
    (hregistry ▸ haway.bijective) (by rw [hchunks, haway.length]; exact hlength) (htaken ▸ hgone)
    (hedit.perlin.trans haway.barren) (hedit.lightmap.trans haway.unlit) fun hnot => by
      refine absurd ?_ hnot
      rw [hedit.hashad, haway.hashad, hhere.hashad]
      exact .inr (.inl rfl)
  have hblock : back.blockat ⟨3, 5, 3⟩ = 18 := by
    rw [hback.blockat, hedit.blockat, setBlock, blockat_setBlockNoSound_user, if_pos rfl]
  refine ⟨back, .step (.move 0 ⟨0, 0⟩) hrun trivial (.move .plain hmove''), ?_, ?_, ?_, ?_⟩
  · rw [hback.requests, hedit.requests, haway.requests, hhere.requests]
    rfl
  · exact (hback.taken _).mpr (.inl rfl)
  · exact ⟨by decide, by rw [hblock]; rfl⟩
  · rintro ⟨r, hr, -⟩
    rw [hback.unlit] at hr
    cases hr

/-- Serving all light requests is a run of events that are heard. -/
theorem LightDrained.reached (h : LightDrained env cs cs') (hcs : Reached (Fresh env) (Heard env) (Happens env) cs) :
    Reached (Fresh env) (Heard env) (Happens env) cs' := by
  induction h with
  | done _ => exact hcs
  | served e userPower hq hr _ ih => exact ih (.step (.serve userPower) hcs trivial (.serve e hq hr))

/-- A lamp set in a chunk that is loaded, and lit: the events are heard, and the lamp has light
of its color. -/
theorem light_survives_edit : ∃ cs, Reached (Fresh .plain) (Heard .plain) (Happens .plain) cs ∧
    cs.lightRebuildRequests = [] ∧ spotToChunkPos ⟨3, 5, 3⟩ ∈ cs.takencare ∧ cs.blockat ⟨3, 5, 3⟩ = 18 ∧
    cs.lightmap.Ray ⟨3, 5, 3⟩ ⟨3, 5, 3⟩ (Blocks.getLightColor 18) := by
  have hstart : Fresh .plain (new .plain 1 0 0 false) := ⟨1, 0, 0, false, none, rfl⟩
  have htended := tended_of_fresh hstart
  obtain ⟨here, hmove, hhere⟩ := exists_movedInDark _ 0 ⟨0, 0⟩ htended.bijective (by decide) Finmap.notMem_empty rfl rfl
    fun _ _ => rfl
  have hspares : (new .plain 1 0 0 false).Spares .plain ⟨0, 0⟩ := by
    intro x b hs
    have hempty : (new .plain 1 0 0 false).stamped .plain ⟨0, 0⟩ = ∅ :=
      stamped_eq rfl (generateChunk_barren .plain .plain rfl ⟨0, 0⟩)
    rw [hempty, Finmap.lookup_empty] at hs
    cases hs
  have hloaded : (⟨0, 0⟩ : IVec2) ∈ here.takencare := (hhere.taken _).mpr (.inl rfl)
  have hnone : here.lightRebuildRequests = [] := hhere.requests
  obtain ⟨cs, hd⟩ := exists_editDrained .plain .plain here ⟨3, 5, 3⟩ 18 false true false hhere.bijective hnone
  have hlit : WellLit here.lightmap := by
    rw [hhere.unlit]
    exact .empty
  have hdrained := editDrained hlit hhere.bijective hnone hd
  have hrun : Reached (Fresh .plain) (Heard .plain) (Happens .plain) here :=
    .step (.move 0 ⟨0, 0⟩) (.start hstart) (fun _ => ⟨List.not_mem_nil, hspares⟩) (.move .plain hmove)
  have hrun' : Reached (Fresh .plain) (Heard .plain) (Happens .plain) cs :=
    hd.reached (.step (.edit ⟨3, 5, 3⟩ 18 false true false) hrun (fun _ _ _ => hloaded) (.edit .plain _ _ _ _ _ _))
  have htaken : spotToChunkPos ⟨3, 5, 3⟩ ∈ cs.takencare := by
    rw [hdrained.takencare]
    exact hloaded
  have hblock : cs.blockat ⟨3, 5, 3⟩ = 18 := by
    rw [hdrained.blockat, setBlock, blockat_setBlockNoSound_user, if_pos rfl]
  obtain ⟨hray, -⟩ := light_survives hrun' hdrained.requests ⟨3, 5, 3⟩ htaken
  rw [hblock] at hray
  exact ⟨cs, hrun', hdrained.requests, htaken, hblock, hray ⟨by decide, by rw [hblock]; rfl⟩⟩

end ChunkSystem

end Distgard
