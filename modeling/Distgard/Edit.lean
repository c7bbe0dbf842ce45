import Distgard.Registry
import Distgard.Light.Lightpass

/-!
# Editing a block

`setBlockAndQueueRerender` sets a block and asks for rebuilds. If neither the old block nor
the new gives light, and the new one is not transparent, the chunks from which light comes
to the neighbors of the cell are asked to be lit anew. Then the chunks of the neighbors, or
that of the cell alone, are asked to be rebuilt, and to be lit anew if the old block or the
new gives light.

## What is proved

* `asked_edit` — an edit sets the block and asks, and does nothing else.
* `mem_lightKeys` — which chunks are asked to be lit anew.
* `LightDrained.drained` — what serving all light requests does to the rays of each origin.
* `editDrained` — what an edit does, after which all light requests are served.
-/

namespace Distgard

open Lib LightMap

/-- The chunks of the origins of the rays in the neighbors of a cell. -/
def implicatedChunks (lightmap : LightMap) (spot : IVec3) : HashSet IVec2 :=
  getNeighbors.foldl (fun implicated i =>
    (lightmap.rays (i + spot)).foldl (fun implicated ray => implicated.insert (spotToChunkPos ray.origin)) implicated) []

/-- The chunks of the neighbors of a cell. -/
def neighborChunks (spot : IVec3) : HashSet IVec2 :=
  getNeighbors.foldl (fun neighbs i => neighbs.insert (spotToChunkPos (spot + i))) []

namespace ChunkSystem

/-- Set a block and ask for rebuilds. -/
def setBlockAndQueueRerender (e : Entropy) (cs : ChunkSystem) (spot : IVec3) (block : UInt32)
    (neighbors userPower automata : Bool) : ChunkSystem :=
  let existingblock := cs.blockat spot
  let cs := cs.setBlock spot block userPower
  let blockislight := Blocks.isLight block
  let blockwaslight := Blocks.isLight existingblock
  let light := blockislight || blockwaslight
  let cs :=
    if !light && !automata && !Blocks.isTransparent (block &&& Blocks.blockIdBits) then
      (e.chunks.iter (implicatedChunks cs.lightmap spot)).foldl (fun cs i => cs.queueRerenderWithKey i true true) cs
    else cs
  if neighbors then
    (e.chunks.iter (neighborChunks spot)).foldl (fun cs i => cs.queueRerenderWithKey i userPower light) cs
  else cs.queueRerender spot userPower light

/-! ### What an edit asks for -/

/-- An edit is about light: the old block or the new gives some. -/
def editsLight (cs : ChunkSystem) (spot : IVec3) (block : UInt32) : Bool :=
  Blocks.isLight block || Blocks.isLight (cs.blockat spot)

/-- The chunks that an edit asks to be rebuilt in any case. -/
def nearChunks (spot : IVec3) (neighbors : Bool) : HashSet IVec2 :=
  if neighbors then neighborChunks spot else [spotToChunkPos spot]

/-- The chunks that an edit asks to be lit anew, in the order in which it does. -/
def lightKeys (e : Entropy) (cs : ChunkSystem) (spot : IVec3) (block : UInt32) (neighbors automata : Bool) : List IVec2 :=
  (if !cs.editsLight spot block && !automata && !Blocks.isTransparent (block &&& Blocks.blockIdBits) then
    e.chunks.iter (implicatedChunks cs.lightmap spot) else []) ++
  (if cs.editsLight spot block then
    if neighbors then e.chunks.iter (neighborChunks spot) else [spotToChunkPos spot] else [])

/-- Rebuilds have been asked for: of the slots with new light, and of others. -/
structure Asked (cs cs' : ChunkSystem) (slots : List ℕ) : Prop where
  /-- Nothing but requests has changed. -/
  eq : ∃ user background, cs' = { cs with
    lightRebuildRequests := cs.lightRebuildRequests ++ slots
    userRebuildRequests := user
    backgroundRebuildRequests := background }

variable {e : Entropy} {cs cs' : ChunkSystem} {spot : IVec3} {block : UInt32} {neighbors userPower automata : Bool}

theorem Asked.refl (cs : ChunkSystem) : Asked cs cs [] := ⟨_, _, by rw [List.append_nil]⟩

theorem Asked.trans {cs'' : ChunkSystem} {slots slots' : List ℕ} (h : Asked cs cs' slots) (h' : Asked cs' cs'' slots') :
    Asked cs cs'' (slots ++ slots') := by
  obtain ⟨user, background, rfl⟩ := h
  obtain ⟨user', background', rfl⟩ := h'
  exact ⟨user', background', by rw [List.append_assoc]⟩

/-- Asking for the chunks of a list. -/
theorem asked_foldl (cs : ChunkSystem) (keys : List IVec2) (userPower light : Bool) :
    Asked cs (keys.foldl (fun cs i => cs.queueRerenderWithKey i userPower light) cs)
      (if light then cs.slotsOf keys else []) := by
  rw [foldl_queueRerenderWithKey]
  cases light with
  | true => exact ⟨_, _, rfl⟩
  | false =>
    simp only [Bool.false_eq_true, if_false]
    cases userPower with
    | true => exact ⟨_, _, by rw [if_pos rfl, List.append_nil]⟩
    | false => exact ⟨_, _, by rw [if_neg (by decide), List.append_nil]⟩

/-- **What an edit does**: it sets the block, and asks for rebuilds. -/
theorem asked_edit (e : Entropy) (cs : ChunkSystem) (spot : IVec3) (block : UInt32) (neighbors userPower automata : Bool) :
    Asked (cs.setBlock spot block userPower) (cs.setBlockAndQueueRerender e spot block neighbors userPower automata)
      (cs.slotsOf (cs.lightKeys e spot block neighbors automata)) := by
  have hset : (cs.setBlock spot block userPower).lightmap = cs.lightmap ∧
      (cs.setBlock spot block userPower).takencare = cs.takencare := by
    unfold setBlock setBlockNoSound
    cases userPower <;> exact ⟨rfl, rfl⟩
  have hslots : ∀ cs' : ChunkSystem, cs'.takencare = cs.takencare → ∀ keys, cs'.slotsOf keys = cs.slotsOf keys :=
    fun cs' h keys => by rw [slotsOf, slotsOf, h]
  have happend : ∀ keys keys', cs.slotsOf (keys ++ keys') = cs.slotsOf keys ++ cs.slotsOf keys' :=
    fun keys keys' => List.filterMap_append
  have hfirst : ∀ b : Bool, Asked (cs.setBlock spot block userPower)
      (if b then (e.chunks.iter (implicatedChunks (cs.setBlock spot block userPower).lightmap spot)).foldl
        (fun cs i => cs.queueRerenderWithKey i true true) (cs.setBlock spot block userPower)
      else cs.setBlock spot block userPower)
      (cs.slotsOf (if b then e.chunks.iter (implicatedChunks cs.lightmap spot) else [])) := by
    intro b
    cases b with
    | true =>
      have h := asked_foldl (cs.setBlock spot block userPower)
        (e.chunks.iter (implicatedChunks (cs.setBlock spot block userPower).lightmap spot)) true true
      rw [if_pos rfl, hslots _ hset.2, hset.1] at h
      rw [if_pos rfl, if_pos rfl, hset.1]
      exact h
    | false => exact .refl _
  have hsecond : ∀ (mid : ChunkSystem) (light : Bool), mid.takencare = cs.takencare → Asked mid
      (if neighbors then (e.chunks.iter (neighborChunks spot)).foldl (fun cs i => cs.queueRerenderWithKey i userPower light) mid
        else mid.queueRerender spot userPower light)
      (cs.slotsOf (if light then if neighbors then e.chunks.iter (neighborChunks spot) else [spotToChunkPos spot] else [])) := by
    intro mid light hmid
    have hnear : ∀ keys, Asked mid (keys.foldl (fun cs i => cs.queueRerenderWithKey i userPower light) mid)
        (cs.slotsOf (if light then keys else [])) := by
      intro keys
      have h := asked_foldl mid keys userPower light
      rw [hslots _ hmid] at h
      cases light
      · exact h
      · exact h
    cases neighbors
    · exact hnear [spotToChunkPos spot]
    · exact hnear _
  unfold setBlockAndQueueRerender lightKeys
  rw [happend]
  refine (hfirst _).trans (hsecond _ _ ?_)
  obtain ⟨user, background, h⟩ := hfirst (!cs.editsLight spot block && !automata &&
    !Blocks.isTransparent (block &&& Blocks.blockIdBits))
  exact (congrArg ChunkSystem.takencare h).trans hset.2

/-- An edit, by what light and the registry see of it. -/
structure Edited (cs cs' : ChunkSystem) (spot : IVec3) (block : UInt32) (userPower : Bool) (slots : List ℕ) : Prop where
  /-- The light is as it was. -/
  lightmap : cs'.lightmap = cs.lightmap
  /-- The registry is as it was. -/
  registry : cs'.registry = cs.registry
  /-- The chunks that have been lit are the same. -/
  hashad : cs'.hashadinitiallightpass = cs.hashadinitiallightpass
  /-- The block is set. -/
  blockat : cs'.blockat = (cs.setBlock spot block userPower).blockat
  /-- New light is asked for. -/
  requests : cs'.lightRebuildRequests = cs.lightRebuildRequests ++ slots
  /-- The terrain is as it was. -/
  perlin : cs'.perlin = cs.perlin

theorem edited (e : Entropy) (cs : ChunkSystem) (spot : IVec3) (block : UInt32) (neighbors userPower automata : Bool) :
    Edited cs (cs.setBlockAndQueueRerender e spot block neighbors userPower automata) spot block userPower
      (cs.slotsOf (cs.lightKeys e spot block neighbors automata)) := by
  obtain ⟨user, background, h⟩ := asked_edit e cs spot block neighbors userPower automata
  rw [h]
  unfold setBlock setBlockNoSound
  cases userPower <;> exact ⟨rfl, rfl, rfl, rfl, rfl, rfl⟩

theorem mem_implicatedChunks {lightmap : LightMap} {key : IVec2} : key ∈ implicatedChunks lightmap spot ↔
    ∃ side : CubeSide, ∃ r ∈ lightmap.rays (side.offset + spot), spotToChunkPos r.origin = key := by
  have hray : ∀ (implicated : HashSet IVec2) (ray : LightRay), key ∈ implicated.insert (spotToChunkPos ray.origin) ↔
      key ∈ implicated ∨ spotToChunkPos ray.origin = key := fun implicated ray => by
    rw [List.mem_insert_iff, or_comm, eq_comm]
  have hcell := foldl_iff_exists (fun implicated : HashSet IVec2 => key ∈ implicated) _ fun implicated i =>
    foldl_iff_exists (fun implicated : HashSet IVec2 => key ∈ implicated) _ hray (lightmap.rays (i + spot)) implicated
  rw [implicatedChunks, hcell, getNeighbors_eq]
  constructor
  · rintro (h | ⟨i, hi, r, hr, hkey⟩)
    · cases h
    · obtain ⟨side, -, rfl⟩ := List.mem_map.mp hi
      exact ⟨side, r, hr, hkey⟩
  · rintro ⟨side, r, hr, hkey⟩
    exact .inr ⟨side.offset, List.mem_map.mpr ⟨side, CubeSide.mem_all side, rfl⟩, r, hr, hkey⟩

theorem mem_neighborChunks {key : IVec2} : key ∈ neighborChunks spot ↔
    ∃ side : CubeSide, spotToChunkPos (spot + side.offset) = key := by
  have hcell : ∀ (neighbs : HashSet IVec2) (i : IVec3), key ∈ neighbs.insert (spotToChunkPos (spot + i)) ↔
      key ∈ neighbs ∨ spotToChunkPos (spot + i) = key := fun neighbs i => by
    rw [List.mem_insert_iff, or_comm, eq_comm]
  rw [neighborChunks, foldl_iff_exists (fun neighbs : HashSet IVec2 => key ∈ neighbs) _ hcell, getNeighbors_eq]
  constructor
  · rintro (h | ⟨i, hi, hkey⟩)
    · cases h
    · obtain ⟨side, -, rfl⟩ := List.mem_map.mp hi
      exact ⟨side, hkey⟩
  · rintro ⟨side, hkey⟩
    exact .inr ⟨side.offset, List.mem_map.mpr ⟨side, CubeSide.mem_all side, rfl⟩, hkey⟩

/-- The chunk of the cell is near it. -/
theorem self_mem_nearChunks (spot : IVec3) (neighbors : Bool) : spotToChunkPos spot ∈ nearChunks spot neighbors := by
  cases neighbors with
  | false => exact List.mem_singleton.mpr rfl
  | true =>
    refine mem_neighborChunks.mpr ⟨.TOP, ?_⟩
    simp [spotToChunkPos, CubeSide.offset]

/-- **Which chunks an edit asks to be lit anew**: those near the cell, if it is about light;
otherwise those whose light comes to a neighbor, unless the block is transparent. -/
theorem mem_lightKeys {key : IVec2} : key ∈ cs.lightKeys e spot block neighbors automata ↔
    if cs.editsLight spot block then key ∈ nearChunks spot neighbors
    else automata = false ∧ Blocks.isTransparent (block &&& Blocks.blockIdBits) = false ∧
      key ∈ implicatedChunks cs.lightmap spot := by
  unfold lightKeys nearChunks
  cases cs.editsLight spot block
  · cases automata <;> cases Blocks.isTransparent (block &&& Blocks.blockIdBits) <;> simp
  · cases neighbors <;> simp

/-! ### Serving light requests -/

/-- All light requests are served, one after the other. -/
inductive LightDrained (env : Externals) : ChunkSystem → ChunkSystem → Prop
  /-- There is none left. -/
  | done {cs : ChunkSystem} : cs.lightRebuildRequests = [] → LightDrained env cs cs
  /-- The first is served. -/
  | served {cs mid cs' : ChunkSystem} {index : ℕ} {requests : List ℕ} (e : Entropy) (userPower : Bool) :
      cs.lightRebuildRequests = index :: requests →
      rebuildIndex env e { cs with lightRebuildRequests := requests } index userPower true = .ok mid →
      LightDrained env mid cs' → LightDrained env cs cs'

/-- A chunk is registered and its slot is on a list. -/
def Requested (cs : ChunkSystem) (slots : List ℕ) (pos : IVec2) : Prop :=
  ∃ cf, cs.takencare.lookup pos = some cf ∧ cf.geoIndex ∈ slots

/-- The slots on the list are those of registered chunks. -/
def Registered (cs : ChunkSystem) (slots : List ℕ) : Prop :=
  ∀ i ∈ slots, ∃ pos cf, cs.takencare.lookup pos = some cf ∧ cf.geoIndex = i

/-- What serving one light request does: the chunk of the slot is lit anew. -/
structure Served (env : Externals) (e : Entropy) (cs cs' : ChunkSystem) (pos : IVec2) : Prop where
  /-- The light of the chunk is new. -/
  lightmap : cs'.lightmap = (cs.lightpassOnChunk e pos).lightmap
  /-- The registry is as it was. -/
  takencare : cs'.takencare = cs.takencare
  /-- The registry is still a bijection. -/
  bijective : cs'.registry.Bijective
  /-- The blocks are as they were. -/
  blockat : cs'.blockat = cs.blockat
  /-- The chunk has been lit. -/
  hashad : cs'.hashadinitiallightpass = cs.hashadinitiallightpass.insert pos true

/-- Serving the request of a registered chunk's slot. -/
theorem served_of_rebuildIndex {env : Externals} {pos : IVec2} {cf : ChunkFacade} {userPower : Bool} {requests : List ℕ}
    (hb : cs.registry.Bijective) (hcf : cs.takencare.lookup pos = some cf)
    (h : rebuildIndex env e { cs with lightRebuildRequests := requests } cf.geoIndex userPower true = .ok cs') :
    Served env e cs cs' pos ∧ cs'.lightRebuildRequests = requests := by
  have hregistry := registry_rebuildIndex h
  have hb' : cs'.registry.Bijective := Registry.Bijective.rebuild hb hregistry
  obtain ⟨chunk, geo, hslot, -, heq⟩ := rebuildIndex_spec h
  obtain ⟨-, c, hc, hpos⟩ := hb.held pos cf hcf
  obtain rfl : chunk = c := Option.some.inj (hslot.symm.trans hc)
  have hmem : chunk.pos ∈ cs.takencare := Finmap.mem_iff.mpr ⟨cf, hpos ▸ hcf⟩
  refine ⟨⟨?_, ?_, hb', ?_, ?_⟩, ?_⟩
  · rw [heq, ← hpos]
    rfl
  · rw [heq]
    exact if_pos hmem
  · rw [heq]
    rfl
  · rw [heq, ← hpos]
    rfl
  · rw [heq]

/-- What serving all light requests does. -/
structure Drained (cs cs' : ChunkSystem) : Prop where
  /-- The light of the requested chunks is new. -/
  relit : ∀ o, Requested cs cs.lightRebuildRequests (spotToChunkPos o) → ∀ x,
    cs'.lightmap.own o x = if Shines cs.blockat o then lightOf cs.blockat o (cs.blockat o) x else []
  /-- All other light is as it was. -/
  kept : ∀ o, ¬ Requested cs cs.lightRebuildRequests (spotToChunkPos o) → ∀ x, cs'.lightmap.own o x = cs.lightmap.own o x
  /-- The light is still well formed. -/
  wellLit : WellLit cs'.lightmap
  /-- The registry is as it was. -/
  takencare : cs'.takencare = cs.takencare
  /-- The registry is still a bijection. -/
  bijective : cs'.registry.Bijective
  /-- The blocks are as they were. -/
  blockat : cs'.blockat = cs.blockat
  /-- Nothing is asked for any more. -/
  requests : cs'.lightRebuildRequests = []

/-- In a bijective registry a slot is registered with one chunk. -/
theorem pos_unique (hb : cs.registry.Bijective) {p q : IVec2} {cf cf' : ChunkFacade} (hp : cs.takencare.lookup p = some cf)
    (hq : cs.takencare.lookup q = some cf') (h : cf.geoIndex = cf'.geoIndex) : p = q := by
  obtain ⟨-, c, hc, rfl⟩ := hb.held p cf hp
  obtain ⟨-, d, hd, rfl⟩ := hb.held q cf' hq
  rw [h, hd] at hc
  cases hc
  rfl

/-- The slots of a list of chunks are requested for those of them that are loaded. -/
theorem requested_slotsOf (hb : cs.registry.Bijective) {keys : List IVec2} {pos : IVec2} :
    Requested cs (cs.slotsOf keys) pos ↔ pos ∈ cs.takencare ∧ pos ∈ keys := by
  constructor
  · rintro ⟨cf, hcf, hm⟩
    obtain ⟨key, hkey, cf', hcf', hindex⟩ := mem_slotsOf.mp hm
    refine ⟨Finmap.mem_iff.mpr ⟨cf, hcf⟩, ?_⟩
    rwa [pos_unique hb hcf hcf' hindex.symm]
  · rintro ⟨hpos, hkey⟩
    obtain ⟨cf, hcf⟩ := Finmap.mem_iff.mp hpos
    exact ⟨cf, hcf, mem_slotsOf.mpr ⟨pos, hkey, cf, hcf, rfl⟩⟩

/-- **Serving all light requests** lights the requested chunks anew, and leaves the light of all
others as it was. -/
theorem LightDrained.drained {env : Externals} (h : LightDrained env cs cs') (hb : cs.registry.Bijective)
    (hlit : WellLit cs.lightmap) (hr : cs.Registered cs.lightRebuildRequests) : Drained cs cs' := by
  induction h with
  | @done cs hnone =>
    refine ⟨?_, fun _ _ _ => rfl, hlit, rfl, hb, rfl, hnone⟩
    intro o ho
    obtain ⟨cf, -, hmem⟩ := ho
    rw [hnone] at hmem
    cases hmem
  | @served cs mid cs' index requests e userPower hq hrebuild _ ih =>
    obtain ⟨pos, cf, hcf, hindex⟩ := hr index (by rw [hq]; exact List.mem_cons_self)
    obtain ⟨hserved, hrequests⟩ := served_of_rebuildIndex hb hcf (hindex ▸ hrebuild)
    have hlit' : WellLit mid.lightmap := by
      rw [hserved.lightmap]
      exact hlit.lightpassOnChunk e pos
    have hr' : mid.Registered mid.lightRebuildRequests := fun i hi => by
      rw [hserved.takencare]
      exact hr i (by rw [hq, ← hrequests]; exact List.mem_cons_of_mem _ hi)
    have hrest := ih hserved.bijective hlit' hr'
    -- a chunk is requested if its slot is the first, and then it is the one lit, or later
    have hsplit : ∀ p, Requested cs cs.lightRebuildRequests p ↔ p = pos ∨ Requested mid mid.lightRebuildRequests p := by
      intro p
      unfold Requested
      rw [hserved.takencare, hrequests, hq]
      constructor
      · rintro ⟨cf', hcf', hm⟩
        rcases List.mem_cons.mp hm with hm | hm
        · exact .inl (pos_unique hb hcf' hcf (hm.trans hindex.symm))
        · exact .inr ⟨cf', hcf', hm⟩
      · rintro (rfl | ⟨cf', hcf', hm⟩)
        · exact ⟨cf, hcf, hindex ▸ List.mem_cons_self⟩
        · exact ⟨cf', hcf', List.mem_cons_of_mem _ hm⟩
    have hown := own_lightpassOnChunk e hlit pos
    refine ⟨fun o ho x => ?_, fun o ho x => ?_, hrest.wellLit, hrest.takencare.trans hserved.takencare, hrest.bijective,
      hrest.blockat.trans hserved.blockat, hrest.requests⟩
    · by_cases hlater : Requested mid mid.lightRebuildRequests (spotToChunkPos o)
      · rw [hrest.relit o hlater x, hserved.blockat]
      · have hpos := ((hsplit _).mp ho).resolve_right hlater
        rw [hrest.kept o hlater x, hserved.lightmap, hown, if_pos hpos]
    · rw [hsplit, not_or] at ho
      rw [hrest.kept o ho.2 x, hserved.lightmap, hown, if_neg ho.1]

/-- What an edit does, after which all light requests are served: the loaded chunks of a list
are lit anew in the world with the block. -/
structure EditDrained (cs cs' : ChunkSystem) (spot : IVec3) (block : UInt32) (userPower : Bool) (keys : List IVec2) :
    Prop where
  /-- The light of the loaded chunks of the list is new. -/
  relit : ∀ o, spotToChunkPos o ∈ cs.takencare → spotToChunkPos o ∈ keys → ∀ x, cs'.lightmap.own o x =
    if Shines (cs.setBlock spot block userPower).blockat o then
      lightOf (cs.setBlock spot block userPower).blockat o ((cs.setBlock spot block userPower).blockat o) x
    else []
  /-- All other light is as it was. -/
  kept : ∀ o, ¬ (spotToChunkPos o ∈ cs.takencare ∧ spotToChunkPos o ∈ keys) → ∀ x,
    cs'.lightmap.own o x = cs.lightmap.own o x
  /-- The light is still well formed. -/
  wellLit : WellLit cs'.lightmap
  /-- The registry is as it was. -/
  takencare : cs'.takencare = cs.takencare
  /-- The registry is still a bijection. -/
  bijective : cs'.registry.Bijective
  /-- The block is set. -/
  blockat : cs'.blockat = (cs.setBlock spot block userPower).blockat
  /-- Nothing is asked for any more. -/
  requests : cs'.lightRebuildRequests = []

/-- **An edit whose light requests are served**, when none were left before. -/
theorem editDrained {env : Externals} (hlit : WellLit cs.lightmap) (hb : cs.registry.Bijective)
    (hnone : cs.lightRebuildRequests = [])
    (hd : LightDrained env (cs.setBlockAndQueueRerender e spot block neighbors userPower automata) cs') :
    EditDrained cs cs' spot block userPower (cs.lightKeys e spot block neighbors automata) := by
  have hedit := edited e cs spot block neighbors userPower automata
  generalize cs.setBlockAndQueueRerender e spot block neighbors userPower automata = edit at hd hedit
  have htaken : edit.takencare = cs.takencare := congrArg Registry.takencare hedit.registry
  have hrequests : edit.lightRebuildRequests = cs.slotsOf (cs.lightKeys e spot block neighbors automata) := by
    rw [hedit.requests, hnone, List.nil_append]
  have hregistered : edit.Registered edit.lightRebuildRequests := by
    intro i hi
    rw [hrequests] at hi
    obtain ⟨key, -, cf, hcf, hindex⟩ := mem_slotsOf.mp hi
    exact ⟨key, cf, htaken ▸ hcf, hindex⟩
  have hdrained := hd.drained (hedit.registry ▸ hb) (hedit.lightmap ▸ hlit) hregistered
  -- a chunk is requested when it is loaded and on the list
  have hrequested : ∀ p, Requested edit edit.lightRebuildRequests p ↔
      p ∈ cs.takencare ∧ p ∈ cs.lightKeys e spot block neighbors automata := by
    intro p
    rw [← requested_slotsOf hb, hrequests]
    unfold Requested
    rw [htaken]
  refine ⟨fun o hloaded hkey x => ?_, fun o ho x => ?_, hdrained.wellLit, hdrained.takencare.trans htaken,
    hdrained.bijective, hdrained.blockat.trans hedit.blockat, hdrained.requests⟩
  · rw [hdrained.relit o ((hrequested _).mpr ⟨hloaded, hkey⟩), hedit.blockat]
  · rw [hdrained.kept o fun h => ho ((hrequested _).mp h), hedit.lightmap]

/-- Light requests of registered chunks can be served. -/
theorem exists_lightDrained (env : Externals) {requests : List ℕ} (hq : cs.lightRebuildRequests = requests)
    (hb : cs.registry.Bijective) (hr : cs.Registered cs.lightRebuildRequests) : ∃ cs', LightDrained env cs cs' := by
  induction requests generalizing cs with
  | nil => exact ⟨cs, .done hq⟩
  | cons index requests ih =>
    obtain ⟨pos, cf, hcf, rfl⟩ := hr index (by rw [hq]; exact List.mem_cons_self)
    obtain ⟨-, c, hc, -⟩ := hb.held pos cf hcf
    have hlt := (List.getElem?_eq_some_iff.mp hc).1
    have hlength : cs.geobank.length = cs.chunks.length := by simpa [registry] using hb.length
    obtain ⟨mid, hmid⟩ : ∃ mid, rebuildIndex env .plain { cs with lightRebuildRequests := requests } cf.geoIndex true true =
        .ok mid := by
      apply rebuildIndex_returns
      · exact hlt
      · rw [hlength]
        exact hlt
    obtain ⟨hserved, hrequests⟩ := served_of_rebuildIndex hb hcf hmid
    obtain ⟨cs', hd⟩ := ih hrequests hserved.bijective fun i hi => by
      rw [hserved.takencare]
      exact hr i (by rw [hq, ← hrequests]; exact List.mem_cons_of_mem _ hi)
    exact ⟨cs', .served .plain true hq hmid hd⟩

/-- The light requests of an edit can be served. -/
theorem exists_editDrained (env : Externals) (e : Entropy) (cs : ChunkSystem) (spot : IVec3) (block : UInt32)
    (neighbors userPower automata : Bool) (hb : cs.registry.Bijective) (hnone : cs.lightRebuildRequests = []) :
    ∃ cs', LightDrained env (cs.setBlockAndQueueRerender e spot block neighbors userPower automata) cs' := by
  have hedit := edited e cs spot block neighbors userPower automata
  apply exists_lightDrained env rfl (hedit.registry ▸ hb)
  intro i hi
  rw [hedit.requests, hnone, List.nil_append] at hi
  obtain ⟨key, -, cf, hcf, hindex⟩ := mem_slotsOf.mp hi
  have htaken : (cs.setBlockAndQueueRerender e spot block neighbors userPower automata).takencare = cs.takencare :=
    congrArg Registry.takencare hedit.registry
  refine ⟨key, cf, ?_, hindex⟩
  rw [htaken]
  exact hcf

end ChunkSystem

end Distgard
