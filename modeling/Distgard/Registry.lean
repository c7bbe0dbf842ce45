import Distgard.Rebuild

/-!
# The registry

Which slot holds which chunk is written down three times: in the slot, with its vertex
data, and in the registry `takencare`. `Registry` is these three and nothing else; rebuilds
and moves act on it by themselves (`registry_rebuildIndex`, `registry_moveAndRebuild`), whatever
light, blocks and vertices they produce.

## What is proved

* `Bijective` — the three agree: registered chunks and slots that hold a chunk belong to each
  other one to one. A fresh registry is bijective, and rebuilds and moves keep it so.
* `registry_bijective` — so it is in every run.
-/

namespace Distgard

open Lib

/-- What is written down about which slot holds which chunk. -/
@[ext]
structure Registry where
  /-- The slots. -/
  chunks : List ChunkFacade
  /-- The positions kept with the vertex data. -/
  positions : List IVec2
  /-- The registry. -/
  takencare : HashMap IVec2 ChunkFacade

namespace Registry

/-- A slot is rebuilt, and its chunk registered. -/
def rebuild (r : Registry) (index : ℕ) : Option Registry :=
  (r.chunks[index]?).map fun chunk =>
    { r with
      chunks := r.chunks.set index { chunk with used := true }
      takencare := if chunk.pos ∈ r.takencare then r.takencare else r.takencare.insert chunk.pos { chunk with used := true } }

/-- A slot comes to hold another chunk. -/
def place (r : Registry) (index : ℕ) (cpos : IVec2) : Option Registry :=
  (r.positions[index]?).bind fun pos => (r.chunks[index]?).map fun chunk =>
    { chunks := r.chunks.set index { chunk with pos := cpos }
      positions := r.positions.set index cpos
      takencare := r.takencare.erase pos }

/-- A slot is moved to a chunk, or the slot that holds the chunk is rebuilt. -/
def move (r : Registry) (index : ℕ) (cpos : IVec2) : Option Registry :=
  match r.takencare.lookup cpos with
  | some cf => r.rebuild cf.geoIndex
  | none => (r.place index cpos).bind fun r => r.rebuild index

end Registry

namespace ChunkSystem

/-- The registry of a chunk system. -/
def registry (cs : ChunkSystem) : Registry := ⟨cs.chunks, cs.geobank.map ChunkGeo.pos, cs.takencare⟩

variable {env : Externals} {e : Entropy} {cs cs' : ChunkSystem} {index : ℕ} {cpos : IVec2}

/-- Putting back a slot's position changes no position. -/
theorem map_pos_set {geobank : List ChunkGeo} {geo : ChunkGeo} (h : geobank[index]? = some geo) (mesh : Mesh) :
    (geobank.set index { geo with mesh := mesh }).map ChunkGeo.pos = geobank.map ChunkGeo.pos := by
  obtain ⟨hlt, hgeo⟩ := List.getElem?_eq_some_iff.mp h
  have hlt' : index < (geobank.map ChunkGeo.pos).length := by rwa [List.length_map]
  have hpos : geo.pos = (geobank.map ChunkGeo.pos)[index] := by rw [List.getElem_map, hgeo]
  rw [List.map_set, hpos, List.set_getElem_self]

/-- A rebuild, seen from the registry. -/
theorem registry_rebuildIndex {userPower light : Bool} (h : cs.rebuildIndex env e index userPower light = .ok cs') :
    cs.registry.rebuild index = some cs'.registry := by
  obtain ⟨chunk, geo, hslot, hbank, heq⟩ := rebuildIndex_spec h
  rw [heq]
  simp only [Registry.rebuild, registry, hslot, Option.map_some, map_pos_set hbank]
  rfl

/-- A move, seen from the registry. -/
theorem registry_moveAndRebuild (h : cs.moveAndRebuild env e index cpos = .ok cs') :
    cs.registry.move index cpos = some cs'.registry := by
  rcases moveAndRebuild_cases h with ⟨cf, hcf, h⟩ | ⟨hnone, placed, generated, hp, hg, h⟩
  · simp only [Registry.move, registry, hcf]
    exact registry_rebuildIndex h
  · obtain ⟨chunk, geo, hslot, hbank, hplaced⟩ := place_spec hp
    obtain ⟨rows, slots, hgen, -⟩ := generateChunk_spec hg
    have hplace : cs.registry.place index cpos = some generated.registry := by
      rw [hgen, hplaced]
      simp only [Registry.place, registry, List.getElem?_map, hbank, hslot, Option.map_some, Option.bind_some,
        List.map_set]
    simp only [Registry.move, registry, hnone]
    rw [show (⟨cs.chunks, cs.geobank.map ChunkGeo.pos, cs.takencare⟩ : Registry) = cs.registry from rfl, hplace]
    exact registry_rebuildIndex h

end ChunkSystem

namespace Registry

/-! ### The invariant -/

/-- The three agree: what is registered is held, and what is held is registered. -/
structure Bijective (r : Registry) : Prop where
  /-- There is vertex data for each slot. -/
  length : r.positions.length = r.chunks.length
  /-- A slot knows its number. -/
  index : ∀ (i : ℕ) (c : ChunkFacade), r.chunks[i]? = some c → c.geoIndex = i
  /-- The position kept with the vertex data is the slot's. -/
  positions : ∀ (i : ℕ) (c : ChunkFacade), r.chunks[i]? = some c → r.positions[i]? = some c.pos
  /-- A chunk that is registered is held by the slot it is registered with. -/
  held : ∀ p f, r.takencare.lookup p = some f → f.pos = p ∧ ∃ c, r.chunks[f.geoIndex]? = some c ∧ c.pos = p
  /-- A slot that holds a chunk is registered under its position. -/
  registered : ∀ (i : ℕ) (c : ChunkFacade), r.chunks[i]? = some c → c.pos ≠ defaultPos →
    ∃ f, r.takencare.lookup c.pos = some f ∧ f.geoIndex = i

/-- Replacing an entry of a list replaces that entry. -/
theorem getElem?_set_of_some {α : Type*} {l : List α} {i : ℕ} {a : α} (h : l[i]? = some a) (b : α) (j : ℕ) :
    (l.set i b)[j]? = if j = i then some b else l[j]? := by
  obtain ⟨hlt, -⟩ := List.getElem?_eq_some_iff.mp h
  rw [List.getElem?_set]
  by_cases hj : j = i
  · rw [if_pos hj.symm, if_pos hlt, if_pos hj]
  · rw [if_neg (Ne.symm hj), if_neg hj]

/-- What a rebuild of a slot does to the slots: one has been rebuilt. -/
theorem rebuild_cases {r r' : Registry} {index : ℕ} (h : r.rebuild index = some r') :
    ∃ chunk, r.chunks[index]? = some chunk ∧ r' =
      { r with
        chunks := r.chunks.set index { chunk with used := true }
        takencare :=
          if chunk.pos ∈ r.takencare then r.takencare else r.takencare.insert chunk.pos { chunk with used := true } } := by
  obtain ⟨chunk, hchunk, heq⟩ := Option.map_eq_some_iff.mp h
  exact ⟨chunk, hchunk, heq.symm⟩

/-- What a move to a chunk that no slot holds does: the slot's old chunk is forgotten, and
the slot holds the new one and is registered with it. -/
theorem move_cases {r r' : Registry} {index : ℕ} {cpos : IVec2} (h : r.move index cpos = some r') :
    (∃ cf, r.takencare.lookup cpos = some cf ∧ r.rebuild cf.geoIndex = some r') ∨
    r.takencare.lookup cpos = none ∧ ∃ chunk pos, r.chunks[index]? = some chunk ∧ r.positions[index]? = some pos ∧
      r' = { chunks := r.chunks.set index { chunk with pos := cpos, used := true }
             positions := r.positions.set index cpos
             takencare := (r.takencare.erase pos).insert cpos { chunk with pos := cpos, used := true } } := by
  unfold move at h
  cases hl : r.takencare.lookup cpos with
  | some cf => rw [hl] at h; exact .inl ⟨cf, rfl, h⟩
  | none =>
    rw [hl] at h
    obtain ⟨placed, hplaced, hrebuild⟩ := Option.bind_eq_some_iff.mp h
    obtain ⟨pos, hpos, hplaced⟩ := Option.bind_eq_some_iff.mp hplaced
    obtain ⟨chunk, hchunk, rfl⟩ := Option.map_eq_some_iff.mp hplaced
    obtain ⟨chunk', hchunk', rfl⟩ := rebuild_cases hrebuild
    rw [getElem?_set_of_some hchunk, if_pos rfl] at hchunk'
    cases hchunk'
    have hnot : cpos ∉ r.takencare.erase pos := by
      rw [← Finmap.lookup_eq_none, HashMap.lookup_erase', hl, ite_self]
    refine .inr ⟨rfl, chunk, pos, hchunk, hpos, ?_⟩
    simp only [if_neg hnot, List.set_set]

/-- A fresh registry is bijective. -/
theorem bijective_fresh (radius : UInt8) :
    Bijective ⟨ChunkSystem.freshChunks radius, (ChunkSystem.freshGeobank radius).map ChunkGeo.pos, ∅⟩ := by
  have hslot : ∀ (i : ℕ) (c : ChunkFacade), (ChunkSystem.freshChunks radius)[i]? = some c →
      i < ChunkSystem.side radius * ChunkSystem.side radius ∧ c = ⟨i, false, defaultPos⟩ := by
    intro i c hc
    rw [ChunkSystem.freshChunks, List.getElem?_map] at hc
    obtain ⟨k, hk, rfl⟩ := Option.map_eq_some_iff.mp hc
    obtain ⟨hlt, rfl⟩ := List.getElem?_eq_some_iff.mp hk
    rw [List.getElem_range]
    exact ⟨by simpa using hlt, rfl⟩
  refine ⟨?_, ?_, ?_, ?_, ?_⟩
  · simp [ChunkSystem.freshChunks, ChunkSystem.freshGeobank]
  · intro i c hc
    rw [(hslot i c hc).2]
  · intro i c hc
    obtain ⟨hlt, rfl⟩ := hslot i c hc
    simp [ChunkSystem.freshGeobank, hlt]
  · intro p f hf
    rw [Finmap.lookup_empty] at hf
    cases hf
  · intro i c hc hpos
    rw [(hslot i c hc).2] at hpos
    exact absurd rfl hpos

namespace Bijective

variable {r r' : Registry} {index : ℕ} {cpos : IVec2}

/-- Two slots do not hold the same chunk. -/
theorem unique (h : r.Bijective) {i j : ℕ} {c d : ChunkFacade} (hi : r.chunks[i]? = some c) (hj : r.chunks[j]? = some d)
    (hpos : c.pos = d.pos) (hc : c.pos ≠ defaultPos) : i = j := by
  obtain ⟨f, hf, rfl⟩ := h.registered i c hi hc
  obtain ⟨g, hg, rfl⟩ := h.registered j d hj (hpos ▸ hc)
  rw [hpos, hg] at hf
  cases hf
  rfl

/-- Rebuilding a slot keeps the registry bijective: a slot that holds a chunk is registered
already. -/
theorem rebuild (h : r.Bijective) (hr : r.rebuild index = some r') : r'.Bijective := by
  obtain ⟨chunk, hchunk, rfl⟩ := rebuild_cases hr
  -- a slot after the rebuild has the number and the position of the slot before it
  have hslot : ∀ (i : ℕ) (c : ChunkFacade), (r.chunks.set index { chunk with used := true })[i]? = some c →
      ∃ c', r.chunks[i]? = some c' ∧ c.geoIndex = c'.geoIndex ∧ c.pos = c'.pos := by
    intro i c hc
    rw [getElem?_set_of_some hchunk] at hc
    split at hc
    · next hi =>
      subst hi
      cases hc
      exact ⟨chunk, hchunk, rfl, rfl⟩
    · exact ⟨c, hc, rfl, rfl⟩
  have hheld : ∀ q (i : ℕ) (c : ChunkFacade), r.chunks[i]? = some c → c.pos = q →
      ∃ c', (r.chunks.set index { chunk with used := true })[i]? = some c' ∧ c'.pos = q := by
    intro q i c hc hcq
    rw [getElem?_set_of_some hchunk]
    split
    · next hi =>
      rw [hi, hchunk] at hc
      cases hc
      exact ⟨_, rfl, hcq⟩
    · exact ⟨c, hc, hcq⟩
  refine ⟨by simpa using h.length, ?_, ?_, ?_, ?_⟩
  · intro i c hc
    obtain ⟨c', hc', hindex, -⟩ := hslot i c hc
    rw [hindex, h.index i c' hc']
  · intro i c hc
    obtain ⟨c', hc', -, hp⟩ := hslot i c hc
    rw [hp]
    exact h.positions i c' hc'
  · intro q g hg
    simp only at hg
    split at hg
    · obtain ⟨hgpos, c, hc, hcq⟩ := h.held q g hg
      exact ⟨hgpos, hheld q g.geoIndex c hc hcq⟩
    · rw [HashMap.lookup_insert'] at hg
      split at hg
      · next hq =>
        cases hg
        exact ⟨hq.symm, hheld q chunk.geoIndex chunk (by rw [h.index index chunk hchunk, hchunk]) hq.symm⟩
      · obtain ⟨hgpos, c, hc, hcq⟩ := h.held q g hg
        exact ⟨hgpos, hheld q g.geoIndex c hc hcq⟩
  · intro i c hc hne
    obtain ⟨c', hc', -, hp⟩ := hslot i c hc
    rw [hp] at hne ⊢
    obtain ⟨f, hf, hfi⟩ := h.registered i c' hc' hne
    refine ⟨f, ?_, hfi⟩
    simp only
    split
    · exact hf
    · next hnot =>
      rw [HashMap.lookup_insert', if_neg, hf]
      rintro he
      exact hnot (Finmap.mem_iff.mpr ⟨f, he ▸ hf⟩)

/-- Moving a slot to a chunk that no slot holds keeps the registry bijective. -/
theorem place (h : r.Bijective) (hnone : r.takencare.lookup cpos = none) {chunk : ChunkFacade} {pos : IVec2}
    (hchunk : r.chunks[index]? = some chunk) (hpos : r.positions[index]? = some pos) :
    Bijective { chunks := r.chunks.set index { chunk with pos := cpos, used := true }
                positions := r.positions.set index cpos
                takencare := (r.takencare.erase pos).insert cpos { chunk with pos := cpos, used := true } } := by
  have hold : chunk.pos = pos := Option.some.inj ((h.positions index chunk hchunk).symm.trans hpos)
  have hindex := h.index index chunk hchunk
  have hlookup : ∀ p, ((r.takencare.erase pos).insert cpos { chunk with pos := cpos, used := true }).lookup p =
      if p = cpos then some { chunk with pos := cpos, used := true } else if p = pos then none
      else r.takencare.lookup p := fun p => by rw [HashMap.lookup_insert', HashMap.lookup_erase']
  refine ⟨by simpa using h.length, ?_, ?_, ?_, ?_⟩
  · intro i c hc
    simp only [getElem?_set_of_some hchunk] at hc
    split at hc
    · next hi => cases hc; exact hi ▸ hindex
    · exact h.index i c hc
  · intro i c hc
    simp only [getElem?_set_of_some hchunk, getElem?_set_of_some hpos] at hc ⊢
    split at hc
    · next hi => cases hc; rw [if_pos hi]
    · next hi => rw [if_neg hi]; exact h.positions i c hc
  · intro p f hf
    simp only [hlookup] at hf
    split at hf
    · next hp =>
      cases hf
      refine ⟨hp.symm, { chunk with pos := cpos, used := true }, ?_, hp.symm⟩
      simp only [hindex, getElem?_set_of_some hchunk, if_true]
    · split at hf
      · cases hf
      · next hp hppos =>
        obtain ⟨hfpos, c, hc, hcp⟩ := h.held p f hf
        refine ⟨hfpos, c, ?_, hcp⟩
        -- a chunk registered elsewhere is not the one that the slot held
        have hi : f.geoIndex ≠ index := by
          intro hi
          rw [hi, hchunk] at hc
          cases hc
          exact hppos (hcp.symm.trans hold)
        simp only [getElem?_set_of_some hchunk, if_neg hi]
        exact hc
  · intro i c hc hne
    simp only [getElem?_set_of_some hchunk, hlookup] at hc ⊢
    split at hc
    · next hi =>
      cases hc
      exact ⟨_, if_pos rfl, hi ▸ hindex⟩
    · next hi =>
      obtain ⟨f, hf, hfi⟩ := h.registered i c hc hne
      refine ⟨f, ?_, hfi⟩
      rw [if_neg, if_neg, hf]
      · intro he
        exact hi (h.unique hc hchunk (he.trans hold.symm) hne)
      · rintro he
        rw [he, hnone] at hf
        cases hf

/-- **A move** keeps the registry bijective. -/
theorem move (h : r.Bijective) (hr : r.move index cpos = some r') : r'.Bijective := by
  rcases move_cases hr with ⟨cf, -, hr⟩ | ⟨hnone, chunk, pos, hchunk, hpos, rfl⟩
  · exact h.rebuild hr
  · exact h.place hnone hchunk hpos

end Bijective

variable {r r' : Registry} {index : ℕ} {cpos : IVec2}

/-- The position that a slot holds. -/
def posOf (r : Registry) (index : ℕ) : Option IVec2 := (r.chunks[index]?).map ChunkFacade.pos

/-- A rebuild changes no slot's position, and the registry only gains what the slot holds. -/
theorem rebuild_effect (h : r.rebuild index = some r') : (∀ j, r'.posOf j = r.posOf j) ∧
    ∀ p, p ∈ r'.takencare ↔ p ∈ r.takencare ∨ r.posOf index = some p := by
  obtain ⟨chunk, hchunk, rfl⟩ := rebuild_cases h
  refine ⟨?_, ?_⟩
  · intro j
    simp only [posOf, getElem?_set_of_some hchunk]
    split
    · next hj => rw [hj, hchunk]; rfl
    · rfl
  · intro p
    simp only [posOf, hchunk, Option.map_some, Option.some.injEq]
    split
    · next hmem =>
      refine ⟨.inl, ?_⟩
      rintro (hp | rfl)
      · exact hp
      · exact hmem
    · rw [Finmap.mem_insert, or_comm, eq_comm]

/-- A move to a registered chunk changes no slot's position; a move to another gives the slot
that position, forgets the chunk it held and registers the new one. -/
theorem move_effect (hb : r.Bijective) (h : r.move index cpos = some r') :
    (cpos ∈ r.takencare ∧ (∀ j, r'.posOf j = r.posOf j) ∧ ∀ p, p ∈ r.takencare → p ∈ r'.takencare) ∨
    cpos ∉ r.takencare ∧ (∀ j, r'.posOf j = if j = index then some cpos else r.posOf j) ∧
      ∀ p, p ∈ r'.takencare ↔ p = cpos ∨ p ∈ r.takencare ∧ r.posOf index ≠ some p := by
  rcases move_cases h with ⟨cf, hcf, hr⟩ | ⟨hnone, chunk, pos, hchunk, hpos, rfl⟩
  · obtain ⟨hslots, hmem⟩ := rebuild_effect hr
    exact .inl ⟨Finmap.mem_iff.mpr ⟨cf, hcf⟩, hslots, fun p hp => (hmem p).mpr (.inl hp)⟩
  · have hold : chunk.pos = pos := Option.some.inj ((hb.positions index chunk hchunk).symm.trans hpos)
    refine .inr ⟨Finmap.lookup_eq_none.mp hnone, fun j => ?_, fun p => ?_⟩
    · simp only [posOf, getElem?_set_of_some hchunk]
      split <;> rfl
    · simp only [posOf, hchunk, Option.map_some, Finmap.mem_insert, Finmap.mem_erase, hold, ne_eq, Option.some.injEq,
        eq_comm, and_comm]

end Registry

namespace ChunkSystem

/-- The states of the runs of moves and rebuilds from a fresh system, whose structures have
been loaded or not. -/
inductive Streamed (env : Externals) : ChunkSystem → Prop
  /-- A fresh system. -/
  | fresh (radius : UInt8) (seed : UInt32) (noisetype : ℕ) (headless : Bool) (models : Option (List JVoxModel)) :
      Streamed env { new env radius seed noisetype headless with voxelModels := models }
  /-- A slot is moved to a chunk. -/
  | moved {cs cs' : ChunkSystem} (e : Entropy) (index : ℕ) (cpos : IVec2) : Streamed env cs →
      index < cs.chunks.length → cpos ≠ defaultPos → cs.moveAndRebuild env e index cpos = .ok cs' → Streamed env cs'
  /-- The slot of a registered chunk is rebuilt. -/
  | rebuilt {cs cs' : ChunkSystem} (e : Entropy) (p : IVec2) (f : ChunkFacade) (userPower light : Bool) :
      Streamed env cs → cs.takencare.lookup p = some f → cs.rebuildIndex env e f.geoIndex userPower light = .ok cs' →
      Streamed env cs'

theorem bijective_new (env : Externals) (radius : UInt8) (seed : UInt32) (noisetype : ℕ) (headless : Bool)
    (models : Option (List JVoxModel)) :
    ({ new env radius seed noisetype headless with voxelModels := models } : ChunkSystem).registry.Bijective := by
  cases headless with
  | false => exact Registry.bijective_fresh radius
  | true =>
    refine ⟨rfl, ?_, ?_, ?_, ?_⟩
    · intro i c hc
      simp [registry, new] at hc
    · intro i c hc
      simp [registry, new] at hc
    · intro p f hf
      simp [registry, new] at hf
    · intro i c hc
      simp [registry, new] at hc

theorem Streamed.bijective {env : Externals} {cs : ChunkSystem} (h : Streamed env cs) : cs.registry.Bijective := by
  induction h with
  | fresh radius seed noisetype headless models => exact bijective_new env radius seed noisetype headless models
  | moved e index cpos _ _ _ hmove ih => exact ih.move (registry_moveAndRebuild hmove)
  | rebuilt e p f userPower light _ _ hrebuild ih => exact ih.rebuild (registry_rebuildIndex hrebuild)

/-- **The registry is a bijection** in every run: what is registered under a position is the
facade of a slot that holds the chunk there, with its vertex data; no two slots hold the
same chunk; and every slot that holds a chunk is registered under its position. Calls run one after
the other; what another thread sees in the middle of one is left out. -/
theorem registry_bijective {env : Externals} {cs : ChunkSystem} (h : Streamed env cs) :
    (∀ p f, cs.takencare.lookup p = some f → f.pos = p ∧
      (cs.chunks[f.geoIndex]?).map ChunkFacade.pos = some p ∧ (cs.geobank[f.geoIndex]?).map ChunkGeo.pos = some p) ∧
    (∀ (i j : ℕ) (c d : ChunkFacade), cs.chunks[i]? = some c → cs.chunks[j]? = some d → c.pos = d.pos → c.pos ≠ defaultPos → i = j) ∧
    ∀ (i : ℕ) (c : ChunkFacade), cs.chunks[i]? = some c → c.pos ≠ defaultPos →
      ∃ f, cs.takencare.lookup c.pos = some f ∧ f.geoIndex = i := by
  have hb := h.bijective
  refine ⟨?_, fun i j c d hi hj hpos hne => hb.unique hi hj hpos hne, hb.registered⟩
  intro p f hf
  obtain ⟨hpos, c, hc, hcp⟩ := hb.held p f hf
  have hgeo := hb.positions f.geoIndex c hc
  simp only [registry, List.getElem?_map] at hc hgeo
  exact ⟨hpos, by rw [hc, Option.map_some, hcp], by rw [hgeo, hcp]⟩

/-- A move of a slot of the pool returns, if the chunk can be generated. -/
theorem moveAndRebuild_returns {env : Externals} {e : Entropy} {cs : ChunkSystem} {index : ℕ} {cpos : IVec2}
    (h : cs.registry.Bijective) (hindex : index < cs.chunks.length)
    (hgen : ∀ placed, cs.place index cpos = .ok placed → ∃ r, placed.generateChunk env e cpos = .ok r) :
    ∃ cs', cs.moveAndRebuild env e index cpos = .ok cs' := by
  have hlength : cs.geobank.length = cs.chunks.length := by simpa [registry] using h.length
  unfold moveAndRebuild
  cases hl : cs.takencare.lookup cpos with
  | some cf =>
    obtain ⟨-, c, hc, -⟩ := h.held cpos cf hl
    obtain ⟨hlt, -⟩ := List.getElem?_eq_some_iff.mp hc
    exact rebuildIndex_returns _ _ hlt (hlength ▸ hlt) false _
  | none =>
    have hplace : ∃ placed, cs.place index cpos = .ok placed := by
      unfold place
      rw [List.getElem?_eq_getElem hindex, List.getElem?_eq_getElem (hlength ▸ hindex)]
      exact ⟨_, rfl⟩
    obtain ⟨placed, hplaced⟩ := hplace
    obtain ⟨generated, hgenerated⟩ := hgen placed hplaced
    obtain ⟨chunk, geo, -, -, hp⟩ := place_spec hplaced
    obtain ⟨rows, slots, hg, -⟩ := generateChunk_spec hgenerated
    simp only [hplaced, bind, Except.bind, hgenerated]
    refine rebuildIndex_returns _ _ ?_ ?_ false _
    · rw [hg, hp]
      simpa using hindex
    · rw [hg, hp]
      simpa [hlength] using hindex

/-- The first slot of a small pool, moved to a chunk in a world of air. -/
theorem registry_bijective_afterMove :
    ∃ cs, (new .plain 1 0 0 false).moveAndRebuild .plain .plain 0 ⟨0, 0⟩ = .ok cs ∧
      ∀ p f, cs.takencare.lookup p = some f → f.pos = p ∧
        (cs.chunks[f.geoIndex]?).map ChunkFacade.pos = some p ∧ (cs.geobank[f.geoIndex]?).map ChunkGeo.pos = some p := by
  have hfresh : Streamed .plain (new .plain 1 0 0 false) := .fresh 1 0 0 false none
  obtain ⟨cs, hcs⟩ : ∃ cs, (new .plain 1 0 0 false).moveAndRebuild .plain .plain 0 ⟨0, 0⟩ = .ok cs :=
    moveAndRebuild_returns hfresh.bijective (by decide) fun placed hplaced => by
      obtain ⟨chunk, geo, -, -, hp⟩ := place_spec hplaced
      exact ⟨placed, generateChunk_barren .plain .plain (by rw [hp]; rfl) ⟨0, 0⟩⟩
  exact ⟨cs, hcs, (registry_bijective (.moved .plain 0 ⟨0, 0⟩ hfresh (by decide) (by decide) hcs)).1⟩

end ChunkSystem

end Distgard
