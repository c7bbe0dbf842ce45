import Distgard.ChunkSystem
import Distgard.Light.Depropagate

/-!
# Lighting a chunk anew

`lightpassOnChunk` takes back the light of every origin in a chunk and spreads the light
of every light block in it. Which origins there are it reads off the rays in the chunk's
own cells, and which light blocks off the blocks there.

## What is proved

* `own_lightpassOnChunk` — afterwards the rays of an origin in the chunk are those that
  spreading its light over a dark map gives, if a light block is there at a height of the
  chunk, and none otherwise; the rays of every other origin are as they were.
* `WellLit.lightpassOnChunk` — what this rests on, kept by every pass: no cell has two rays
  of one origin, and from its origin every ray is found along the recorded directions.
* `lightpass_correct` — all of this for every lightmap that passes over whatever worlds have
  made, with the order in which hash sets are iterated making no difference.
-/

namespace Distgard

open Lib LightMap

/-- What the scan of a chunk finds. -/
structure Sources where
  /-- The origins in the chunk that have rays in it. -/
  existingsources : HashSet IVec3
  /-- The light blocks, with their words. -/
  lightsources : HashSet (IVec3 × UInt32)

section

variable (blockat : IVec3 → UInt32)

/-- Note the origin of a ray, if it is in the chunk, and the light block there. -/
def scanRay (pos : IVec2) (s : Sources) (ray : LightRay) : Sources :=
  if spotToChunkPos ray.origin = pos then
    let id := blockat ray.origin
    { existingsources := s.existingsources.insert ray.origin
      lightsources := if Blocks.isLight id then s.lightsources.insert (ray.origin, id) else s.lightsources }
  else s

/-- Note what there is in a cell. -/
def scanCell (lightmap : LightMap) (pos : IVec2) (s : Sources) (blockcoord : IVec3) : Sources :=
  let s := (lightmap.rays blockcoord).foldl (scanRay blockat pos) s
  let id := blockat blockcoord
  if Blocks.isLight id then { s with lightsources := s.lightsources.insert (blockcoord, id) } else s

/-- Note what there is in a chunk. -/
def scanChunk (lightmap : LightMap) (pos : IVec2) : Sources :=
  (chunkCells pos).foldl (scanCell blockat lightmap pos) ⟨[], []⟩

/-- Take back the light of the origins, one after the other. -/
def depropagateAll (sources : List IVec3) (s : LightMap × HashSet IVec2) : LightMap × HashSet IVec2 :=
  sources.foldl (fun s source => depropagateLightOrigin source s.1 s.2) s

/-- Spread the light of the light blocks, one after the other. -/
def propagateAll (sources : List (IVec3 × UInt32)) (s : LightMap × HashSet IVec2) : LightMap × HashSet IVec2 :=
  sources.foldl (fun s source =>
    propagateLightOrigin blockat s.1 source.1 source.1 (Blocks.getLightColor source.2) s.2) s

end

/-- Light the chunk at `pos` anew, and ask for the chunks whose light changed to be rebuilt. -/
def ChunkSystem.lightpassOnChunk (e : Entropy) (cs : ChunkSystem) (pos : IVec2) : ChunkSystem :=
  let sources := scanChunk cs.blockat cs.lightmap pos
  let dark := depropagateAll (e.spots.iter sources.existingsources) (cs.lightmap, [])
  let lit := propagateAll cs.blockat (e.sources.iter sources.lightsources) dark
  { cs with
    hashadinitiallightpass := cs.hashadinitiallightpass.insert pos true
    lightmap := lit.1
    userRebuildRequests := cs.userRebuildRequests ++ cs.slotsOf (e.chunks.iter lit.2) }

/-! ### The scan -/

section

variable {blockat : IVec3 → UInt32} {lm : LightMap} {pos : IVec2}

/-- The sets hold nothing twice, and with a light block the word that is there. -/
structure Sources.Ok (blockat : IVec3 → UInt32) (s : Sources) : Prop where
  /-- No origin is noted twice. -/
  existing : s.existingsources.Nodup
  /-- No light block is noted twice. -/
  lights : s.lightsources.Nodup
  /-- A light block is noted with its word. -/
  word : ∀ l ∈ s.lightsources, l.2 = blockat l.1

theorem Sources.Ok.scanRay {s : Sources} (h : s.Ok blockat) (r : LightRay) : (scanRay blockat pos s r).Ok blockat := by
  unfold Distgard.scanRay
  split
  · refine ⟨h.existing.insert, ?_, ?_⟩
    · dsimp only
      split
      · exact h.lights.insert
      · exact h.lights
    · dsimp only
      split
      · intro l hl
        rcases List.mem_insert_iff.mp hl with rfl | hl
        · rfl
        · exact h.word l hl
      · exact h.word
  · exact h

theorem Sources.Ok.scanCell {s : Sources} (h : s.Ok blockat) (c : IVec3) : (scanCell blockat lm pos s c).Ok blockat := by
  have hrays : ((lm.rays c).foldl (Distgard.scanRay blockat pos) s).Ok blockat :=
    foldl_induct (Sources.Ok blockat) (lm.rays c) (fun _ r _ h => h.scanRay r) h
  unfold Distgard.scanCell
  dsimp only
  split
  · refine ⟨hrays.existing, hrays.lights.insert, ?_⟩
    intro l hl
    rcases List.mem_insert_iff.mp hl with rfl | hl
    · rfl
    · exact hrays.word l hl
  · exact hrays

theorem scanChunk_ok : (scanChunk blockat lm pos).Ok blockat :=
  foldl_induct (Sources.Ok blockat) _ (fun _ c _ h => h.scanCell c)
    ⟨List.nodup_nil, List.nodup_nil, fun l hl => by cases hl⟩

variable (blockat lm pos)

theorem mem_existing_scanRay (o : IVec3) (s : Sources) (r : LightRay) :
    o ∈ (scanRay blockat pos s r).existingsources ↔
      o ∈ s.existingsources ∨ spotToChunkPos o = pos ∧ r.origin = o := by
  unfold scanRay
  split
  · next h =>
    rw [List.mem_insert_iff, or_comm]
    refine or_congr_right ⟨?_, fun ho => ho.2.symm⟩
    rintro rfl
    exact ⟨h, rfl⟩
  · next h =>
    refine ⟨.inl, ?_⟩
    rintro (ho | ⟨ho, rfl⟩)
    · exact ho
    · exact absurd ho h

theorem mem_existing_scanCell (o : IVec3) (s : Sources) (c : IVec3) :
    o ∈ (scanCell blockat lm pos s c).existingsources ↔
      o ∈ s.existingsources ∨ ∃ r ∈ lm.rays c, spotToChunkPos o = pos ∧ r.origin = o := by
  have hrays := foldl_iff_exists (fun s : Sources => o ∈ s.existingsources) _
    (mem_existing_scanRay blockat pos o) (lm.rays c) s
  rw [← hrays, scanCell]
  split <;> rfl

theorem mem_lights_scanRay (source : IVec3 × UInt32) (s : Sources) (r : LightRay) :
    source ∈ (scanRay blockat pos s r).lightsources ↔
      source ∈ s.lightsources ∨ spotToChunkPos r.origin = pos ∧ Blocks.isLight (blockat r.origin) = true ∧
        source = (r.origin, blockat r.origin) := by
  unfold scanRay
  by_cases hp : spotToChunkPos r.origin = pos <;>
    by_cases hl : Blocks.isLight (blockat r.origin) = true <;> simp [hp, hl, or_comm]

theorem mem_lights_scanCell (source : IVec3 × UInt32) (s : Sources) (c : IVec3) :
    source ∈ (scanCell blockat lm pos s c).lightsources ↔
      source ∈ s.lightsources ∨ ((∃ r ∈ lm.rays c, spotToChunkPos r.origin = pos ∧
        Blocks.isLight (blockat r.origin) = true ∧ source = (r.origin, blockat r.origin)) ∨
          Blocks.isLight (blockat c) = true ∧ source = (c, blockat c)) := by
  have hrays := foldl_iff_exists (fun s : Sources => source ∈ s.lightsources) _
    (mem_lights_scanRay blockat pos source) (lm.rays c) s
  rw [← or_assoc, ← hrays]
  unfold scanCell
  by_cases hl : Blocks.isLight (blockat c) = true <;> simp [hl, or_comm]

variable {blockat lm pos}

/-- The origins found are those in the chunk that have a ray in one of its cells. -/
theorem mem_existingsources {o : IVec3} :
    o ∈ (scanChunk blockat lm pos).existingsources ↔
      spotToChunkPos o = pos ∧ ∃ c ∈ chunkCells pos, ∃ r ∈ lm.rays c, r.origin = o := by
  have hcells := foldl_iff_exists (fun s : Sources => o ∈ s.existingsources) _
    (mem_existing_scanCell blockat lm pos o) (chunkCells pos) ⟨[], []⟩
  rw [scanChunk, hcells]
  constructor
  · rintro (h | ⟨c, hc, r, hr, hp, ho⟩)
    · cases h
    · exact ⟨hp, c, hc, r, hr, ho⟩
  · rintro ⟨hp, c, hc, r, hr, ho⟩
    exact .inr ⟨c, hc, r, hr, hp, ho⟩

/-- The light blocks found are those in the chunk's cells, and those at an origin found. -/
theorem mem_lightsources {source : IVec3 × UInt32} :
    source ∈ (scanChunk blockat lm pos).lightsources ↔
      source.2 = blockat source.1 ∧ Blocks.isLight (blockat source.1) = true ∧
        (source.1 ∈ chunkCells pos ∨ source.1 ∈ (scanChunk blockat lm pos).existingsources) := by
  rw [mem_existingsources]
  have hcells := foldl_iff_exists (fun s : Sources => source ∈ s.lightsources) _
    (mem_lights_scanCell blockat lm pos source) (chunkCells pos) ⟨[], []⟩
  rw [scanChunk, hcells]
  constructor
  · rintro (h | ⟨c, hc, ⟨r, hr, hp, hl, rfl⟩ | ⟨hl, rfl⟩⟩)
    · cases h
    · exact ⟨rfl, hl, .inr ⟨hp, c, hc, r, hr, rfl⟩⟩
    · exact ⟨rfl, hl, .inl hc⟩
  · rintro ⟨hw, hl, hc | ⟨hp, c, hc, r, hr, ho⟩⟩
    · exact .inr ⟨source.1, hc, .inr ⟨hl, Prod.ext rfl hw⟩⟩
    · refine .inr ⟨c, hc, .inl ⟨r, hr, ?_⟩⟩
      rw [ho]
      exact ⟨hp, hl, Prod.ext rfl hw⟩

end

/-! ### Well-lit lightmaps -/

/-- Where the rays of an origin come from can be followed: no cell has two of them, and each
is found from the origin along the recorded directions. -/
structure Traced (lm : LightMap) (o : IVec3) : Prop where
  /-- No cell has two rays of the origin. -/
  single : lm.Single o
  /-- Every ray is found from the origin. -/
  linked : ∀ x r, lm.ray? o x = some r → Linked (lm.ray? o) o x

theorem Traced.congr {lm lm' : LightMap} {o : IVec3} (h : Traced lm o) (hown : ∀ x, lm'.own o x = lm.own o x) :
    Traced lm' o := by
  have hray : lm'.ray? o = lm.ray? o := funext fun x => by rw [ray?, ray?, hown]
  refine ⟨?_, ?_⟩
  · intro x
    rw [hown]
    exact h.single x
  · intro x r hr
    rw [hray] at hr ⊢
    exact h.linked x r hr

theorem traced_of_dark {lm : LightMap} {o : IVec3} (h : ∀ x, lm.own o x = []) : Traced lm o := by
  refine ⟨?_, ?_⟩
  · intro x
    rw [h]
    exact Nat.zero_le 1
  · intro x r hr
    rw [ray?, h] at hr
    cases hr

/-- An origin with a ray somewhere has one at its own cell. -/
theorem Traced.origin_lit {lm : LightMap} {o x : IVec3} {r : LightRay} (h : Traced lm o)
    (hr : lm.ray? o x = some r) : ∃ r', lm.ray? o o = some r' := by
  cases ho : lm.ray? o o with
  | some r' => exact ⟨r', rfl⟩
  | none =>
    have hx : x = o := (h.linked x r hr).eq_of_none ho
    rw [hx, ho] at hr
    cases hr

/-- What every lightmap that passes have made satisfies. -/
structure WellLit (lm : LightMap) : Prop where
  /-- The rays of every origin can be followed. -/
  traced : ∀ o, Traced lm o
  /-- Light comes from origins at a height of the chunk. -/
  height : ∀ o x r, lm.ray? o x = some r → 0 ≤ o.y ∧ o.y < CH_H

theorem WellLit.empty : WellLit ∅ :=
  ⟨fun o => traced_of_dark fun x => by simp [own], fun o x r hr => by simp [ray?, own] at hr⟩

/-- The origins that the scan of a well-lit map finds are those in the chunk with a ray
anywhere. -/
theorem WellLit.mem_existingsources {blockat : IVec3 → UInt32} {lm : LightMap} {pos : IVec2} {o : IVec3}
    (h : WellLit lm) :
    o ∈ (scanChunk blockat lm pos).existingsources ↔ spotToChunkPos o = pos ∧ ∃ x r, lm.ray? o x = some r := by
  rw [Distgard.mem_existingsources]
  refine and_congr_right fun hp => ⟨?_, ?_⟩
  · rintro ⟨c, -, r, hr, rfl⟩
    exact ⟨c, r, (h.traced _).single.ray?_eq_some hr⟩
  · rintro ⟨x, r, hr⟩
    obtain ⟨r', hr'⟩ := (h.traced o).origin_lit hr
    exact ⟨o, mem_chunkCells.mpr ⟨hp, h.height o x r hr⟩, r', mem_rays_of_ray? hr', origin_of_ray? hr'⟩

/-! ### The two loops over sources -/

/-- Taking back light leaves none of the origins in the list, and the rest as it is. -/
theorem own_depropagateAll {l : List IVec3} {s : LightMap × HashSet IVec2} (h : ∀ o ∈ l, Traced s.1 o) (o x : IVec3) :
    (depropagateAll l s).1.own o x = if o ∈ l then [] else s.1.own o x := by
  induction l generalizing s with
  | nil => simp [depropagateAll]
  | cons source l ih =>
    have hsource := h source (List.mem_cons_self ..)
    have hown : ∀ o x, (depropagateLightOrigin source s.1 s.2).1.own o x = if o = source then [] else s.1.own o x := by
      intro o x
      split
      · next ho =>
        subst ho
        exact depropagate_own hsource.single hsource.linked s.2 x
      · next ho => exact own_congr ho (depropagate_frame source s.1 s.2 x)
    have hrest : ∀ o ∈ l, Traced (depropagateLightOrigin source s.1 s.2).1 o := by
      intro o ho
      by_cases hos : o = source
      · exact traced_of_dark fun x => by rw [hown, if_pos hos]
      · exact (h o (List.mem_cons_of_mem _ ho)).congr fun x => by rw [hown, if_neg hos]
    rw [depropagateAll, List.foldl_cons, ← depropagateAll, ih hrest, hown]
    by_cases hos : o = source <;> by_cases hol : o ∈ l <;> simp [hos, hol]

/-- The rays in a cell that the light of a block at `o` gives, spread over a dark map. -/
def lightOf (blockat : IVec3 → UInt32) (o : IVec3) (block : UInt32) (x : IVec3) : List LightRay :=
  (propagateLightOrigin blockat ∅ o o (Blocks.getLightColor block) []).1.own o x

/-- Spreading light from origins that have none gives each its light, and leaves the rest
as it is. -/
theorem own_propagateAll {blockat : IVec3 → UInt32} {l : List (IVec3 × UInt32)} {s : LightMap × HashSet IVec2}
    (hnodup : (l.map Prod.fst).Nodup) (hdark : ∀ source ∈ l, ∀ x, s.1.own source.1 x = []) (x : IVec3) :
    (∀ source ∈ l, (propagateAll blockat l s).1.own source.1 x = lightOf blockat source.1 source.2 x) ∧
      ∀ o, (∀ source ∈ l, source.1 ≠ o) → (propagateAll blockat l s).1.own o x = s.1.own o x := by
  induction l generalizing s with
  | nil => exact ⟨fun source hs => absurd hs List.not_mem_nil, fun o _ => rfl⟩
  | cons source l ih =>
    obtain ⟨hnotin, hnodup'⟩ := List.nodup_cons.mp hnodup
    set s' := propagateLightOrigin blockat s.1 source.1 source.1 (Blocks.getLightColor source.2) s.2 with hs'
    have hother : ∀ o, source.1 ≠ o → ∀ x, s'.1.own o x = s.1.own o x := fun o ho x =>
      own_congr (Ne.symm ho) (propagate_frame blockat _ source.1 s.1 source.1 _ s.2 x)
    have hne : ∀ source' ∈ l, source.1 ≠ source'.1 := fun source' hs e =>
      hnotin (List.mem_map.mpr ⟨source', hs, e.symm⟩)
    have hdark' : ∀ source' ∈ l, ∀ x, s'.1.own source'.1 x = [] := fun source' hs x => by
      rw [hother _ (hne source' hs), hdark source' (List.mem_cons_of_mem _ hs)]
    obtain ⟨hlit, hframe⟩ := ih hnodup' hdark'
    have hcons : propagateAll blockat (source :: l) s = propagateAll blockat l s' := rfl
    rw [hcons]
    refine ⟨?_, ?_⟩
    · intro source' hs
      rcases List.mem_cons.mp hs with rfl | hs
      · rw [hframe _ fun source' hs e => hne source' hs e.symm, hs']
        exact propagate_own_congr blockat _ _ _ [] s.2
          (fun x => by rw [hdark _ (List.mem_cons_self ..)]; simp [own]) x
      · exact hlit source' hs
    · intro o ho
      rw [hframe o fun source' hs => ho source' (List.mem_cons_of_mem _ hs), hother o (ho source (List.mem_cons_self ..))]

/-! ### The whole pass -/

/-- A light block is in the cell, at a height of the chunk. -/
def Shines (blockat : IVec3 → UInt32) (o : IVec3) : Prop :=
  (0 ≤ o.y ∧ o.y < CH_H) ∧ Blocks.isLight (blockat o) = true

instance (blockat : IVec3 → UInt32) (o : IVec3) : Decidable (Shines blockat o) :=
  inferInstanceAs (Decidable (_ ∧ _))

section

variable {blockat : IVec3 → UInt32} {lm : LightMap}

/-- The light of the chunk has been taken back before any is spread. -/
theorem own_taken (e : Entropy) (h : WellLit lm) (blockat : IVec3 → UInt32) (pos : IVec2) (o x : IVec3) :
    (depropagateAll (e.spots.iter (scanChunk blockat lm pos).existingsources) (lm, [])).1.own o x =
      if spotToChunkPos o = pos then [] else lm.own o x := by
  rw [own_depropagateAll fun o _ => h.traced o]
  simp only [IterOrder.mem_iter]
  by_cases ho : o ∈ (scanChunk blockat lm pos).existingsources
  · rw [if_pos ho, if_pos (Distgard.mem_existingsources.mp ho).1]
  rw [if_neg ho]
  split
  · next hp =>
    -- an origin of the chunk that the scan did not find has no light to take back
    rw [h.mem_existingsources] at ho
    rw [← ray?_eq_none_iff, Option.eq_none_iff_forall_not_mem]
    exact fun r hr => ho ⟨hp, x, r, hr⟩
  · rfl

/-- The light blocks that the scan of a well-lit map finds are those of the chunk that shine. -/
theorem WellLit.mem_lightsources (h : WellLit lm) {pos : IVec2} {source : IVec3 × UInt32} :
    source ∈ (scanChunk blockat lm pos).lightsources ↔
      source.2 = blockat source.1 ∧ spotToChunkPos source.1 = pos ∧ Shines blockat source.1 := by
  rw [Distgard.mem_lightsources]
  refine and_congr_right fun _ => ?_
  constructor
  · rintro ⟨hlight, hc | hc⟩
    · obtain ⟨hpos, hheight⟩ := mem_chunkCells.mp hc
      exact ⟨hpos, hheight, hlight⟩
    · obtain ⟨hpos, y, r, hr⟩ := (h.mem_existingsources).mp hc
      exact ⟨hpos, h.height _ y r hr, hlight⟩
  · rintro ⟨hpos, hheight, hlight⟩
    exact ⟨hlight, .inl (mem_chunkCells.mpr ⟨hpos, hheight⟩)⟩

/-- No cell is scanned for two light blocks. -/
theorem nodup_lightsources (e : Entropy) (blockat : IVec3 → UInt32) (lm : LightMap) (pos : IVec2) :
    ((e.sources.iter (scanChunk blockat lm pos).lightsources).map Prod.fst).Nodup := by
  have hok : (scanChunk blockat lm pos).Ok blockat := scanChunk_ok
  apply (e.sources.nodup_iter hok.lights).map_on
  intro a ha b hb hab
  rw [IterOrder.mem_iter] at ha hb
  exact Prod.ext hab (by rw [hok.word a ha, hok.word b hb, hab])

end

/-- **What a pass does**: the origins in the chunk that shine get their light anew, those that
do not shine lose it, and all others keep it. -/
theorem own_lightpassOnChunk (e : Entropy) {cs : ChunkSystem} (h : WellLit cs.lightmap) (pos : IVec2) (o x : IVec3) :
    (cs.lightpassOnChunk e pos).lightmap.own o x =
      if spotToChunkPos o = pos then
        if Shines cs.blockat o then lightOf cs.blockat o (cs.blockat o) x else []
      else cs.lightmap.own o x := by
  have htaken := own_taken e h cs.blockat pos
  have hsource : ∀ {source}, source ∈ e.sources.iter (scanChunk cs.blockat cs.lightmap pos).lightsources ↔
      source.2 = cs.blockat source.1 ∧ spotToChunkPos source.1 = pos ∧ Shines cs.blockat source.1 := by
    intro source
    rw [IterOrder.mem_iter, h.mem_lightsources]
  obtain ⟨hlit, hframe⟩ := own_propagateAll (nodup_lightsources e cs.blockat cs.lightmap pos)
    (fun source hs x => (htaken source.1 x).trans (if_pos (hsource.mp hs).2.1)) x
  have hlm : (cs.lightpassOnChunk e pos).lightmap = (propagateAll cs.blockat
      (e.sources.iter (scanChunk cs.blockat cs.lightmap pos).lightsources)
      (depropagateAll (e.spots.iter (scanChunk cs.blockat cs.lightmap pos).existingsources) (cs.lightmap, []))).1 := rfl
  rw [hlm]
  by_cases hp : spotToChunkPos o = pos
  · rw [if_pos hp]
    by_cases hsh : Shines cs.blockat o
    · rw [if_pos hsh]
      exact hlit (o, cs.blockat o) (hsource.mpr ⟨rfl, hp, hsh⟩)
    · rw [if_neg hsh, hframe o, htaken, if_pos hp]
      rintro source hs rfl
      exact hsh (hsource.mp hs).2.2
  · rw [if_neg hp, hframe o, htaken, if_neg hp]
    rintro source hs rfl
    exact hp (hsource.mp hs).2.1

/-- The light of one block, spread over a dark map, can be followed. -/
theorem traced_lightOf (blockat : IVec3 → UInt32) (o : IVec3) (block : UInt32) :
    Traced (propagateLightOrigin blockat ∅ o o (Blocks.getLightColor block) []).1 o := by
  have hdark : ∀ x, ray? ∅ o x = none := fun x => by simp [ray?, own]
  exact ⟨propagate_single CubeSide.mem_all hdark, fun x r hr => propagate_linked CubeSide.mem_all hdark hr⟩

/-- The light of one block is the wave of its color. -/
theorem mem_lightOf_iff {blockat : IVec3 → UInt32} {o : IVec3} {block : UInt32} {x : IVec3} {v : LightColor} :
    (∃ r ∈ lightOf blockat o block x, r.value = v) ↔
      ∃ k, Arrives blockat o (Blocks.getLightColor block) k x ∧ v = (Blocks.getLightColor block).fadeN k := by
  have hdark : ∀ x, ray? ∅ o x = none := fun x => by simp [ray?, own]
  have harr : (∃ r, (propagateLightOrigin blockat ∅ o o (Blocks.getLightColor block) []).1.ray? o x = some r ∧
      r.value = v) ↔ _ := propagate_arrive CubeSide.mem_all hdark x v
  rw [← harr, lightOf, (traced_lightOf blockat o block).single.own_eq]
  simp only [Option.mem_toList]

/-- The light block at an origin, if there is one, sheds light of some color into a cell. -/
def Sheds (blockat : IVec3 → UInt32) (o x : IVec3) (v : LightColor) : Prop :=
  Shines blockat o ∧ ∃ k, Arrives blockat o (Blocks.getLightColor (blockat o)) k x ∧
    v = (Blocks.getLightColor (blockat o)).fadeN k

/-- What lighting the chunk of an origin anew leaves of its light. -/
theorem sheds_iff {blockat : IVec3 → UInt32} {o x : IVec3} {v : LightColor} :
    (∃ r ∈ (if Shines blockat o then lightOf blockat o (blockat o) x else []), r.value = v) ↔ Sheds blockat o x v := by
  unfold Sheds
  by_cases hs : Shines blockat o
  · rw [if_pos hs, mem_lightOf_iff]
    exact ⟨fun h => ⟨hs, h⟩, fun h => h.2⟩
  · rw [if_neg hs]
    exact ⟨fun ⟨_, hr, _⟩ => absurd hr List.not_mem_nil, fun h => absurd h.1 hs⟩

/-- A pass keeps the lightmap well lit. -/
theorem WellLit.lightpassOnChunk (e : Entropy) {cs : ChunkSystem} (h : WellLit cs.lightmap) (pos : IVec2) :
    WellLit (cs.lightpassOnChunk e pos).lightmap := by
  have hown := own_lightpassOnChunk e h pos
  refine ⟨?_, ?_⟩
  · intro o
    by_cases hp : spotToChunkPos o = pos
    · by_cases hs : Shines cs.blockat o
      · exact (traced_lightOf cs.blockat o (cs.blockat o)).congr fun x => by rw [hown, if_pos hp, if_pos hs]; rfl
      · exact traced_of_dark fun x => by rw [hown, if_pos hp, if_neg hs]
    · exact (h.traced o).congr fun x => by rw [hown, if_neg hp]
  · intro o x r hr
    by_cases hs : spotToChunkPos o = pos ∧ Shines cs.blockat o
    · exact hs.2.1
    · rw [ray?, hown] at hr
      split at hr
      · next hp =>
        rw [if_neg fun h => hs ⟨hp, h⟩] at hr
        cases hr
      · exact h.height o x r hr

/-- A pass over a dark map and a chunk without light blocks notes that the chunk was lit. -/
theorem lightpassOnChunk_of_dark (e : Entropy) {cs : ChunkSystem} {pos : IVec2} (hdark : cs.lightmap = ∅)
    (hlight : ∀ x, Blocks.isLight (cs.blockat x) = false) :
    cs.lightpassOnChunk e pos =
      { cs with hashadinitiallightpass := cs.hashadinitiallightpass.insert pos true } := by
  have hexisting : (scanChunk cs.blockat cs.lightmap pos).existingsources = [] := by
    apply List.eq_nil_iff_forall_not_mem.mpr
    intro o ho
    obtain ⟨-, c, -, r, hr, -⟩ := mem_existingsources.mp ho
    rw [hdark, rays_empty] at hr
    cases hr
  have hlights : (scanChunk cs.blockat cs.lightmap pos).lightsources = [] := by
    apply List.eq_nil_iff_forall_not_mem.mpr
    intro source hs
    have hl := (mem_lightsources.mp hs).2.1
    rw [hlight] at hl
    cases hl
  unfold ChunkSystem.lightpassOnChunk
  simp only [hexisting, hlights, IterOrder.iter_nil, depropagateAll, propagateAll, List.foldl_nil,
    ChunkSystem.slotsOf, List.filterMap_nil, List.append_nil]

/-- The lightmaps that passes make, each over some world. -/
inductive Lightpassed : LightMap → Prop
  /-- No light at all. -/
  | dark : Lightpassed ∅
  /-- A pass over some world that has such a lightmap. -/
  | pass (e : Entropy) (cs : ChunkSystem) (pos : IVec2) :
      Lightpassed cs.lightmap → Lightpassed (cs.lightpassOnChunk e pos).lightmap

theorem Lightpassed.wellLit {lm : LightMap} (h : Lightpassed lm) : WellLit lm := by
  induction h with
  | dark => exact .empty
  | pass e cs pos _ ih => exact ih.lightpassOnChunk e pos

/-- **A pass is correct, framed and independent of order**: over every lightmap that passes
have made, the light blocks of the chunk give the light that spreading it gives; no ray of
another origin in the chunk is left; the rays of origins in other chunks are as they were;
and another order of iteration gives the same rays. The source does so within reach of
`spotToChunkPos`, at coordinates below `2 ^ 24`. -/
theorem lightpass_correct (e : Entropy) (cs : ChunkSystem) (c : IVec2) (h : Lightpassed cs.lightmap) :
    (∀ o, spotToChunkPos o = c → Shines cs.blockat o → ∀ x, (cs.lightpassOnChunk e c).lightmap.own o x =
      (propagateLightOrigin cs.blockat ∅ o o (Blocks.getLightColor (cs.blockat o)) []).1.own o x) ∧
    (∀ o, spotToChunkPos o = c → ¬ Shines cs.blockat o → ∀ x, (cs.lightpassOnChunk e c).lightmap.own o x = []) ∧
    (∀ o, spotToChunkPos o ≠ c → ∀ x, (cs.lightpassOnChunk e c).lightmap.own o x = cs.lightmap.own o x) ∧
    ∀ (e' : Entropy) o x, (cs.lightpassOnChunk e' c).lightmap.own o x = (cs.lightpassOnChunk e c).lightmap.own o x := by
  have hown := fun e => own_lightpassOnChunk e h.wellLit c
  refine ⟨?_, ?_, ?_, ?_⟩
  · intro o hp hs x
    rw [hown, if_pos hp, if_pos hs, lightOf]
  · intro o hp hs x
    rw [hown, if_pos hp, if_neg hs]
  · intro o hp x
    rw [hown, if_neg hp]
  · intro e' o x
    rw [hown, hown]

/-- A torch in the open, in a dark world. -/
def torchWorld : ChunkSystem := ChunkSystem.barren.setBlock ⟨3, 5, 3⟩ 49 true

/-- The torch lights the cell above it as spreading its light does. -/
theorem lightpass_torchWorld :
    (torchWorld.lightpassOnChunk .plain ⟨0, 0⟩).lightmap.own ⟨3, 5, 3⟩ ⟨3, 6, 3⟩ =
      (propagateLightOrigin torchWorld.blockat ∅ ⟨3, 5, 3⟩ ⟨3, 5, 3⟩ ⟨10, 8, 1⟩ []).1.own ⟨3, 5, 3⟩ ⟨3, 6, 3⟩ :=
  (lightpass_correct .plain torchWorld ⟨0, 0⟩ .dark).1 ⟨3, 5, 3⟩ (by decide) (by decide) ⟨3, 6, 3⟩

end Distgard
