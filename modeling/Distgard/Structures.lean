import Distgard.Generate

/-!
# Which structures a planet grows

The structures of all planets stand in one list, and each planet has a range of it. To choose
one, the feature value at a cell is rounded down, the start of the range is subtracted, and what
remains is compared with the range again. On the planet whose range starts at `0` the subtraction
does nothing. On the other the comparison is of a number that has already been shifted, and no
feature value passes it; the subtraction wraps on the way.

The color of a voxel becomes the identifier of a block, cut down to the number of kinds there
are, which is one more than the last of them.

## The model

`sites` are the cells at which the generator draws a number, in order, and `stamps` the
structures that are stamped for the numbers drawn; `generateChunk_eq_writes` says that their
blocks are all that is written.

## What is proved

* `generateChunk_safe_iff` — generating a chunk keeps to the planet's structures and to blocks
  that exist exactly on the planet whose range starts at `0`, where no structure that is stamped
  has a color beyond the blocks.
* `generateChunk_unsafe` — a chunk of either planet where it does not.
-/

namespace Distgard

open Lib

namespace Blocks

/-- How long each kind of block takes to break. -/
def BREAKTIMES : List ℚ :=
  [0.1, 0.5, 0.7, 0.7, 0.5, 1, 0.7, 0.2, 0.7, 1.5, 0.7, 0.8, 1.1, 1.5, 0.7, 9999999, 1.2, 0.5, 1, 1, 0.6, 1.5, 1, 0.2,
    1, 1, 1, 1, 1, 1, 1, 1, 1, 1, 1, 1, 1, 1, 1, 1, 1, 1, 1, 1, 1, 0.5, 0.5, 1, 1, 0.3, 0.7]

/-- How long a block takes to break. -/
def getBreakTime (id : UInt32) : Except Panic ℚ :=
  match BREAKTIMES[id.toNat]? with
  | some time => .ok time
  | none => .error .index

theorem length_BREAKTIMES : BREAKTIMES.length = getTexsLength := rfl

/-- The tables have an entry for the block. -/
def Tabled (id : UInt32) : Prop := id.toNat < getTexsLength ∧ ∃ time, getBreakTime id = .ok time

theorem tabled_iff {id : UInt32} : Tabled id ↔ id.toNat < getTexsLength := by
  refine ⟨And.left, fun h => ⟨h, ?_⟩⟩
  rw [← length_BREAKTIMES] at h
  exact ⟨BREAKTIMES[id.toNat], by rw [getBreakTime, List.getElem?_eq_getElem h]⟩

end Blocks

/-- A voxel becomes a block that exists if its color is one. -/
theorem Voxel.tabled_block_iff {v : Voxel} : Blocks.Tabled v.block ↔ v.colorIndex.toNat < Blocks.getTexsLength := by
  have hmax : (UInt8.ofNat Blocks.getTexsLength).toNat = Blocks.getTexsLength := by decide
  have hblock : v.block.toNat = min v.colorIndex.toNat Blocks.getTexsLength := by
    have hmin : v.block =
        (if v.colorIndex ≤ UInt8.ofNat Blocks.getTexsLength then v.colorIndex
          else UInt8.ofNat Blocks.getTexsLength).toUInt32 := rfl
    rw [hmin, UInt8.toNat_toUInt32]
    split
    · rename_i h
      rw [UInt8.le_iff_toNat_le, hmax] at h
      exact (Nat.min_eq_left h).symm
    · rename_i h
      rw [UInt8.le_iff_toNat_le, hmax] at h
      rw [hmax, Nat.min_eq_right (by omega)]
  rw [Blocks.tabled_iff, hblock]
  omega

/-- The number of the structure that a feature value chooses, if it passes the comparison with
the planet's range. -/
def itemOf (planetType : UInt8) (featnoise : ℚ) : Option ℕ :=
  let dimRange := Planets.getVoxelModelIndexRange planetType.toUInt32
  let item := toU32 featnoise - UInt32.ofNat dimRange.1
  if item ≤ UInt32.ofNat dimRange.2 ∧ UInt32.ofNat dimRange.1 ≤ item then some item.toNat else none

namespace ChunkSystem

/-- The feature value at a cell. -/
def featnoise (cs : ChunkSystem) (coord : IVec3) : ℚ := cs.perlin.featureNoise ⟨coord.x * 20, coord.z * 20⟩ * 20

/-- A number is drawn at the cell: it is ground, and the feature value there is positive. -/
def isSite (cs : ChunkSystem) (coord : IVec3) : Bool := cs.isFloor coord && decide (0 < cs.featnoise coord)

/-- The cells of a chunk at which a number is drawn, in order. -/
def sites (cs : ChunkSystem) (cpos : IVec2) : List IVec3 := (generateCells cpos).filter cs.isSite

/-- The structure stamped at a site, where `n` numbers were drawn before. -/
def stampAt (draws : ℕ → UInt32) (cs : ChunkSystem) (n : ℕ) (coord : IVec3) : Option (IVec3 × ℕ) :=
  if 127 ≤ draws n then (itemOf cs.planetType (cs.featnoise coord)).map (coord, ·) else none

/-- The structures stamped at some sites. -/
def stampsFrom (draws : ℕ → UInt32) (cs : ChunkSystem) (n : ℕ) (sites : List IVec3) : List (IVec3 × ℕ) :=
  (sites.zipIdx n).filterMap fun site => stampAt draws cs site.2 site.1

/-- The structures stamped in a chunk: where, and which. -/
def stamps (env : Externals) (cs : ChunkSystem) (cpos : IVec2) : List (IVec3 × ℕ) :=
  stampsFrom (env.stdRng (genSeed cpos)) cs 0 (cs.sites cpos)

/-- The blocks of some structures. -/
def writes (models : List JVoxModel) (stamps : List (IVec3 × ℕ)) : List (IVec3 × UInt32) :=
  stamps.flatMap fun stamp => match models[stamp.2]? with
    | some model => model.rows stamp.1
    | none => []

end ChunkSystem

/-! ### The range of a planet -/

theorem floor_le_twenty {q : ℚ} (h : q ≤ 20) : q.floor ≤ 20 := Rat.floor_monotone h

theorem toU32_toNat {q : ℚ} (h : q ≤ 20) : (toU32 q).toNat = q.floor.toNat := by
  have hfloor := floor_le_twenty h
  rw [toU32, min_eq_left (by omega),
    UInt32.toNat_ofNat_of_lt' (Nat.lt_of_le_of_lt (Int.toNat_le.mpr hfloor) (by decide))]

/-- What is chosen lies in the planet's range. -/
theorem itemOf_range {planetType : UInt8} {featnoise : ℚ} {item : ℕ} (h : itemOf planetType featnoise = some item) :
    (Planets.getVoxelModelIndexRange planetType.toUInt32).1 ≤ item ∧
      item ≤ (Planets.getVoxelModelIndexRange planetType.toUInt32).2 := by
  have hfirst : (UInt32.ofNat (Planets.getVoxelModelIndexRange planetType.toUInt32).1).toNat =
      (Planets.getVoxelModelIndexRange planetType.toUInt32).1 := by
    unfold Planets.getVoxelModelIndexRange
    split <;> rfl
  have hlast : (UInt32.ofNat (Planets.getVoxelModelIndexRange planetType.toUInt32).2).toNat =
      (Planets.getVoxelModelIndexRange planetType.toUInt32).2 := by
    unfold Planets.getVoxelModelIndexRange
    split <;> rfl
  rw [itemOf] at h
  split at h
  · rename_i hin
    cases h
    rw [UInt32.le_iff_toNat_le, UInt32.le_iff_toNat_le, hfirst, hlast] at hin
    exact ⟨hin.2, hin.1⟩
  · cases h

/-- No planet has more structures than there are. -/
theorem range_lt (planetType : UInt8) : (Planets.getVoxelModelIndexRange planetType.toUInt32).2 < 17 := by
  unfold Planets.getVoxelModelIndexRange
  split <;> decide

/-- Where the range starts at `0`, a feature value chooses what it is, rounded down. -/
theorem itemOf_zero {featnoise : ℚ} (h : featnoise ≤ 20) :
    itemOf 0 featnoise = if featnoise.floor ≤ 13 then some featnoise.floor.toNat else none := by
  have hitem : itemOf 0 featnoise =
      if (toU32 featnoise - 0) ≤ 13 ∧ 0 ≤ (toU32 featnoise - 0) then some (toU32 featnoise - 0).toNat else none := rfl
  have hle : toU32 featnoise ≤ 13 ↔ featnoise.floor ≤ 13 := by
    rw [UInt32.le_iff_toNat_le, toU32_toNat h, show (13 : UInt32).toNat = 13 from rfl]
    omega
  rw [hitem, UInt32.sub_zero, toU32_toNat h]
  simp only [hle, UInt32.zero_le, and_true]

/-- There each structure is chosen by a feature value, half a step above its number. -/
theorem itemOf_reaches {item : ℕ} (h : item ≤ 13) :
    ∃ featnoise : ℚ, 0 < featnoise ∧ featnoise ≤ 20 ∧ itemOf 0 featnoise = some item := by
  have hhalf : (1 / 2 : ℚ).floor = 0 := by decide +kernel
  have hfloor : (1 / 2 + ((item : ℤ) : ℚ)).floor = item := by rw [Rat.floor_add_intCast, hhalf, Int.zero_add]
  have hlt : (1 / 2 + ((item : ℤ) : ℚ)).floor < (20 : ℤ) := by omega
  have hle : 1 / 2 + ((item : ℤ) : ℚ) ≤ 20 := Rat.le_of_lt (Rat.floor_lt_iff.mp hlt)
  have hpos : ((0 : ℤ) : ℚ) ≤ ((item : ℤ) : ℚ) := Rat.intCast_le_intCast.mpr (Int.natCast_nonneg item)
  refine ⟨1 / 2 + ((item : ℤ) : ℚ), by grind, hle, ?_⟩
  rw [itemOf_zero hle, hfloor, if_pos (by omega), Int.toNat_natCast]

/-- Where it starts at `14`, no feature value is large enough. -/
theorem itemOf_one {featnoise : ℚ} (h : featnoise ≤ 20) : itemOf 1 featnoise = none := by
  have hitem : itemOf 1 featnoise =
      if (toU32 featnoise - 14) ≤ 16 ∧ 14 ≤ (toU32 featnoise - 14) then some (toU32 featnoise - 14).toNat else none := rfl
  have hfloor := floor_le_twenty h
  have hnat := toU32_toNat h
  have hsub : (toU32 featnoise - 14).toNat = (2 ^ 32 - 14 + (toU32 featnoise).toNat) % 2 ^ 32 :=
    UInt32.toNat_sub _ _
  rw [hitem, if_neg]
  rw [UInt32.le_iff_toNat_le, UInt32.le_iff_toNat_le, hsub, hnat, show (16 : UInt32).toNat = 16 from rfl,
    show (14 : UInt32).toNat = 14 from rfl]
  omega

/-! ### What is stamped -/

namespace ChunkSystem

variable {cs : ChunkSystem} {draws : ℕ → UInt32}

theorem stampsFrom_cons (n : ℕ) (coord : IVec3) (sites : List IVec3) :
    stampsFrom draws cs n (coord :: sites) =
      (stampAt draws cs n coord).toList ++ stampsFrom draws cs (n + 1) sites := by
  rw [stampsFrom, List.zipIdx_cons, List.filterMap_cons]
  cases stampAt draws cs n coord <;> rfl

theorem writes_append (models : List JVoxModel) (stamps stamps' : List (IVec3 × ℕ)) :
    writes models (stamps ++ stamps') = writes models stamps ++ writes models stamps' := List.flatMap_append

/-- Nothing happens where no number is drawn. -/
theorem generateAt_of_not_isSite {s : GenState} (hs : cs.SameTerrain s.cs) {coord : IVec3}
    (h : cs.isSite coord = false) : generateAt draws s coord = .ok s := by
  rw [generateAt]
  split
  · rename_i hfloor
    rw [isFloor, hs.perlin, hs.planetType] at hfloor
    rw [isSite, isFloor, hfloor, Bool.true_and, decide_eq_false_iff_not, featnoise] at h
    dsimp only
    rw [hs.perlin, if_neg h]
  · rfl

/-- At a site a number is drawn, and a structure may be stamped. -/
theorem generateAt_of_isSite {s : GenState} (hs : cs.SameTerrain s.cs) {models : List JVoxModel}
    (hmodels : cs.voxelModels = some models) (hlen : 17 ≤ models.length) {coord : IVec3}
    (h : cs.isSite coord = true) :
    generateAt draws s coord =
      .ok (s.wrote (writes models (stampAt draws cs s.drawn coord).toList) (s.drawn + 1)) := by
  rw [isSite, Bool.and_eq_true, decide_eq_true_iff, featnoise] at h
  obtain ⟨hfloor, hpos⟩ := h
  have hfloor' : s.cs.isFloor coord = true := by rw [isFloor, hs.perlin, hs.planetType]; exact hfloor
  rw [generateAt, if_pos hfloor']
  dsimp only
  rw [hs.perlin, hs.planetType, if_pos hpos, stampAt, itemOf, featnoise]
  set dimRange := Planets.getVoxelModelIndexRange cs.planetType.toUInt32
  set item := toU32 (cs.perlin.featureNoise ⟨coord.x * 20, coord.z * 20⟩ * 20) - UInt32.ofNat dimRange.1 with hitem
  by_cases hin : item ≤ UInt32.ofNat dimRange.2 ∧ UInt32.ofNat dimRange.1 ≤ item
  · have hchosen : itemOf cs.planetType (cs.featnoise coord) = some item.toNat := if_pos hin
    have hlt := (itemOf_range hchosen).2.trans_lt ((range_lt cs.planetType).trans_le hlen)
    have hmodel : s.cs.voxelModel item.toNat = .ok (models[item.toNat]) := by
      rw [voxelModel, hs.voxelModels, hmodels]
      dsimp only
      rw [List.getElem?_eq_getElem hlt]
    rw [if_pos hin, hmodel]
    by_cases hdraw : 127 ≤ draws s.drawn
    · have hrows : writes models [(coord, item.toNat)] = models[item.toNat].rows coord := by
        simp only [writes, List.flatMap_cons, List.flatMap_nil, List.append_nil, List.getElem?_eq_getElem hlt]
      rw [if_pos ⟨hin.1, hin.2, hdraw⟩, if_pos hdraw, Option.map_some, Option.toList_some, hrows]
      exact congrArg Except.ok (GenState.stampHere_eq _ coord _)
    · rw [if_neg fun h => hdraw h.2.2, if_neg hdraw]
      rfl
  · rw [if_neg fun h => hin ⟨h.1, h.2.1⟩, if_neg hin]
    split <;> rfl

/-- **What a list of cells stamps.** -/
theorem foldlM_generateAt_writes {models : List JVoxModel} (hmodels : cs.voxelModels = some models)
    (hlen : 17 ≤ models.length) (cells : List IVec3) {s : GenState} (hs : cs.SameTerrain s.cs) :
    cells.foldlM (generateAt draws) s =
      .ok (s.wrote (writes models (stampsFrom draws cs s.drawn (cells.filter cs.isSite)))
        (s.drawn + (cells.filter cs.isSite).length)) := by
  induction cells generalizing s with
  | nil => rfl
  | cons coord cells ih =>
    rw [List.foldlM_cons]
    by_cases hsite : cs.isSite coord = true
    · rw [generateAt_of_isSite hs hmodels hlen hsite, List.filter_cons_of_pos hsite]
      refine (ih (hs.wrote _ _)).trans ?_
      have hdrawn : s.drawn + 1 + (cells.filter cs.isSite).length = s.drawn + ((cells.filter cs.isSite).length + 1) := by
        omega
      rw [GenState.wrote_wrote, ← writes_append, stampsFrom_cons, List.length_cons, ← hdrawn]
      rfl
    · rw [generateAt_of_not_isSite hs (Bool.eq_false_iff.mpr hsite), List.filter_cons_of_neg hsite]
      exact ih hs

/-- The chunk system with some blocks stamped, and the chunks stamped into asked to be rebuilt. -/
def stampedWith (e : Entropy) (cs : ChunkSystem) (rows : List (IVec3 × UInt32)) : ChunkSystem :=
  { cs with
    nonuserdatamap := HashMap.insertAll rows cs.nonuserdatamap
    genRebuildRequests := cs.genRebuildRequests ++
      cs.slotsOf (e.chunks.iter ((rows.map fun r => spotToChunkPos r.1).foldl (fun imp c => imp.insert c) [])) }

variable {env : Externals} {cpos : IVec2} {models : List JVoxModel}

/-- **The structures listed** are all that generating a chunk writes. -/
theorem generateChunk_eq_writes (e : Entropy) (hmodels : cs.voxelModels = some models) (hlen : 17 ≤ models.length) :
    generateChunk env e cs cpos = .ok (stampedWith e cs (writes models (cs.stamps env cpos))) := by
  rw [generateChunk, foldlM_generateAt_writes hmodels hlen _ ⟨rfl, rfl, rfl⟩]
  rfl

theorem mem_stamps {coord : IVec3} {item : ℕ} :
    (coord, item) ∈ cs.stamps env cpos ↔
      ∃ k, (cs.sites cpos)[k]? = some coord ∧ 127 ≤ env.stdRng (genSeed cpos) k ∧
        itemOf cs.planetType (cs.featnoise coord) = some item := by
  rw [stamps, stampsFrom, List.mem_filterMap]
  constructor
  · rintro ⟨⟨coord', k⟩, hmem, hstamp⟩
    rw [stampAt] at hstamp
    split at hstamp
    · rename_i hdraw
      obtain ⟨item', hitem, heq⟩ := Option.map_eq_some_iff.mp hstamp
      cases heq
      exact ⟨k, List.mem_zipIdx_iff_getElem?.mp hmem, hdraw, hitem⟩
    · cases hstamp
  · rintro ⟨k, hk, hdraw, hitem⟩
    refine ⟨(coord, k), List.mem_zipIdx_iff_getElem?.mpr hk, ?_⟩
    rw [stampAt, if_pos hdraw, hitem]
    rfl

theorem mem_writes {stamps : List (IVec3 × ℕ)} {row : IVec3 × UInt32} :
    row ∈ writes models stamps ↔
      ∃ coord item model, (coord, item) ∈ stamps ∧ models[item]? = some model ∧ row ∈ model.rows coord := by
  rw [writes, List.mem_flatMap]
  constructor
  · rintro ⟨⟨coord, item⟩, hmem, hrow⟩
    cases hmodel : models[item]? with
    | none => simp [hmodel] at hrow
    | some model => exact ⟨coord, item, model, hmem, hmodel, by simpa [hmodel] using hrow⟩
  · rintro ⟨coord, item, model, hmem, hmodel, hrow⟩
    exact ⟨(coord, item), hmem, by simpa [hmodel] using hrow⟩

/-- Generating a chunk is safe, and uses the structures of the planet. -/
structure Safe (env : Externals) (cs : ChunkSystem) (models : List JVoxModel) (cpos : IVec2) : Prop where
  /-- It ends without a panic, and the structures listed are what it writes. -/
  completes : ∀ e, generateChunk env e cs cpos = .ok (stampedWith e cs (writes models (cs.stamps env cpos)))
  /-- The start of the range is never larger than what it is subtracted from. -/
  noUnderflow : ∀ coord ∈ cs.sites cpos,
    (Planets.getVoxelModelIndexRange cs.planetType.toUInt32).1 ≤ (toU32 (cs.featnoise coord)).toNat
  /-- The structures stamped are there, and the planet's. -/
  inRange : ∀ stamp ∈ cs.stamps env cpos, stamp.2 < models.length ∧
    (Planets.getVoxelModelIndexRange cs.planetType.toUInt32).1 ≤ stamp.2 ∧
      stamp.2 ≤ (Planets.getVoxelModelIndexRange cs.planetType.toUInt32).2
  /-- Each structure of the planet is chosen by some feature value. -/
  reaches : ∀ item, (Planets.getVoxelModelIndexRange cs.planetType.toUInt32).1 ≤ item →
    item ≤ (Planets.getVoxelModelIndexRange cs.planetType.toUInt32).2 →
      ∃ featnoise : ℚ, 0 < featnoise ∧ featnoise ≤ 20 ∧ itemOf cs.planetType featnoise = some item
  /-- The tables have an entry for each block written. -/
  tabled : ∀ row ∈ writes models (cs.stamps env cpos), Blocks.Tabled row.2

/-- The structures that the feature values choose where a stamp is drawn have no color beyond the
blocks. -/
def ColorsFit (env : Externals) (cs : ChunkSystem) (models : List JVoxModel) (cpos : IVec2) : Prop :=
  ∀ k coord model, (cs.sites cpos)[k]? = some coord → 127 ≤ env.stdRng (genSeed cpos) k →
    (cs.featnoise coord).floor ≤ 13 → models[(cs.featnoise coord).floor.toNat]? = some model →
      ∀ i ∈ model.models, ∀ v ∈ i.voxels, v.colorIndex.toNat < Blocks.getTexsLength

/-- **Generating a chunk is safe** exactly on the planet whose range of structures starts at `0`,
and where the structures stamped have no color beyond the blocks. Nothing overflows an `i32` as long
as the chunk's coordinates are below `2 ^ 24`. -/
theorem generateChunk_safe_iff (env : Externals) (cs : ChunkSystem) (models : List JVoxModel) (cpos : IVec2)
    (hplanet : cs.planetType = 0 ∨ cs.planetType = 1)
    (hnoise : ∀ p, 0 ≤ cs.perlin.featureNoise p * 20 ∧ cs.perlin.featureNoise p * 20 ≤ 20)
    (hmodels : cs.voxelModels = some models) (hlen : 17 ≤ models.length) :
    Safe env cs models cpos ↔ cs.planetType = 0 ∧ ColorsFit env cs models cpos := by
  have hle : ∀ coord, cs.featnoise coord ≤ 20 := fun coord => (hnoise _).2
  constructor
  · intro h
    have hzero : cs.planetType = 0 := by
      refine hplanet.resolve_right fun hone => ?_
      obtain ⟨featnoise, -, hfeat, hitem⟩ := h.reaches 14 (by rw [hone]; decide) (by rw [hone]; decide)
      rw [hone, itemOf_one hfeat] at hitem
      cases hitem
    refine ⟨hzero, ?_⟩
    intro k coord model hk hdraw hfloor hmodel i hi v hv
    have hitem : itemOf cs.planetType (cs.featnoise coord) = some (cs.featnoise coord).floor.toNat := by
      rw [hzero, itemOf_zero (hle coord), if_pos hfloor]
    have hrow : (coord + i.rearrPoint v, v.block) ∈ model.rows coord :=
      List.mem_flatMap.mpr ⟨i, hi, List.mem_map_of_mem hv⟩
    exact Voxel.tabled_block_iff.mp (h.tabled _ (mem_writes.mpr ⟨coord, _, model, mem_stamps.mpr ⟨k, hk, hdraw, hitem⟩,
      hmodel, hrow⟩))
  · rintro ⟨hzero, hfit⟩
    refine ⟨fun e => generateChunk_eq_writes e hmodels hlen, ?_, ?_, ?_, ?_⟩
    · intro coord _
      rw [hzero]
      exact Nat.zero_le _
    · rintro ⟨coord, item⟩ hstamp
      obtain ⟨k, -, -, hitem⟩ := mem_stamps.mp hstamp
      have hrange := itemOf_range hitem
      exact ⟨hrange.2.trans_lt ((range_lt cs.planetType).trans_le hlen), hrange⟩
    · intro item _ hitem
      rw [hzero] at hitem ⊢
      exact itemOf_reaches hitem
    · intro row hrow
      obtain ⟨coord, item, model, hstamp, hmodel, hrow⟩ := mem_writes.mp hrow
      obtain ⟨k, hk, hdraw, hitem⟩ := mem_stamps.mp hstamp
      rw [hzero, itemOf_zero (hle coord)] at hitem
      split at hitem
      · rename_i hfloor
        cases hitem
        obtain ⟨i, hi, hrow⟩ := List.mem_flatMap.mp hrow
        obtain ⟨v, hv, rfl⟩ := List.mem_map.mp hrow
        exact Voxel.tabled_block_iff.mpr (hfit k coord model hk hdraw hfloor hmodel i hi v hv)
      · cases hitem

/-! ### One cell of ground -/

/-- A world whose ground is one cell, where the feature value is a half; all structures are alike. -/
def lawn (planetType : UInt8) (ground : UInt32) (model : JVoxModel) : ChunkSystem :=
  { barren with
    planetType := planetType
    perlin := ⟨fun c => if c = ⟨3, 10, 5⟩ then ground else 0, fun _ => 1 / 40⟩
    voxelModels := some (List.replicate 17 model) }

/-- The cell is a site. -/
theorem mem_sites_lawn {planetType : UInt8} {ground : UInt32} {model : JVoxModel}
    (h : ground ∈ Planets.getFloorBlocks planetType.toUInt32) :
    ⟨3, 10, 5⟩ ∈ (lawn planetType ground model).sites ⟨0, 0⟩ := by
  have hcell : (⟨3, 10, 5⟩ : IVec3) ∈ generateCells ⟨0, 0⟩ :=
    mem_columnCells.mpr ⟨by decide, List.mem_reverse.mpr (mem_range0.mpr (by decide))⟩
  have hfloor : (lawn planetType ground model).isFloor ⟨3, 10, 5⟩ = true := List.contains_iff_mem.mpr h
  have hpos : 0 < (lawn planetType ground model).featnoise ⟨3, 10, 5⟩ := by
    show (0 : ℚ) < 1 / 40 * 20
    decide +kernel
  refine List.mem_filter.mpr ⟨hcell, ?_⟩
  rw [isSite, hfloor, Bool.true_and, decide_eq_true_iff]
  exact hpos

theorem noise_lawn (planetType : UInt8) (ground : UInt32) (model : JVoxModel) :
    ∀ p, 0 ≤ (lawn planetType ground model).perlin.featureNoise p * 20 ∧
      (lawn planetType ground model).perlin.featureNoise p * 20 ≤ 20 := by
  intro p
  show (0 : ℚ) ≤ 1 / 40 * 20 ∧ (1 / 40 * 20 : ℚ) ≤ 20
  exact ⟨by decide +kernel, by decide +kernel⟩

/-- A structure of one block. -/
def oneBlock (colorIndex : UInt8) : JVoxModel := ⟨[⟨1, 1, [⟨0, 0, 0, colorIndex⟩]⟩]⟩

/-- On the first planet, structures of a block that exists are safe. -/
theorem generateChunk_safe_lawn : Safe alwaysStamp (lawn 0 3 (oneBlock 7)) (List.replicate 17 (oneBlock 7)) ⟨0, 0⟩ := by
  refine (generateChunk_safe_iff alwaysStamp (lawn 0 3 (oneBlock 7)) (List.replicate 17 (oneBlock 7)) ⟨0, 0⟩ (.inl rfl)
    (noise_lawn 0 3 _) rfl (by decide)).mpr ⟨rfl, ?_⟩
  intro k coord model _ _ _ hmodel i hi v hv
  rw [List.eq_of_mem_replicate (List.mem_of_getElem? hmodel)] at hi
  simp only [oneBlock, List.mem_singleton] at hi
  rw [hi, List.mem_singleton] at hv
  rw [hv]
  decide

/-- On the second planet the subtraction underflows and no structure can be chosen; on the first, a
color beyond the blocks is written, and has no entry in the tables. -/
theorem generateChunk_unsafe :
    (¬ Safe alwaysStamp (lawn 1 1 (oneBlock 7)) (List.replicate 17 (oneBlock 7)) ⟨0, 0⟩ ∧
      ⟨3, 10, 5⟩ ∈ (lawn 1 1 (oneBlock 7)).sites ⟨0, 0⟩ ∧
      (toU32 ((lawn 1 1 (oneBlock 7)).featnoise ⟨3, 10, 5⟩)).toNat < 14 ∧
      ¬ ∃ featnoise : ℚ, featnoise ≤ 20 ∧ (itemOf 1 featnoise).isSome) ∧
    (¬ Safe alwaysStamp (lawn 0 3 (oneBlock 200)) (List.replicate 17 (oneBlock 200)) ⟨0, 0⟩ ∧
      (⟨3, 10, 5⟩, 51) ∈ writes (List.replicate 17 (oneBlock 200)) ((lawn 0 3 (oneBlock 200)).stamps alwaysStamp ⟨0, 0⟩) ∧
      Blocks.getBreakTime 51 = .error .index) := by
  have hsite₁ : ⟨3, 10, 5⟩ ∈ (lawn 1 1 (oneBlock 7)).sites ⟨0, 0⟩ := mem_sites_lawn (by decide)
  have hsmall : (toU32 ((lawn 1 1 (oneBlock 7)).featnoise ⟨3, 10, 5⟩)).toNat < 14 := by
    show (toU32 (1 / 40 * 20)).toNat < 14
    decide +kernel
  obtain ⟨k, hk⟩ := List.getElem?_of_mem
    (show ⟨3, 10, 5⟩ ∈ (lawn 0 3 (oneBlock 200)).sites ⟨0, 0⟩ from mem_sites_lawn (by decide))
  have hitem : itemOf 0 ((lawn 0 3 (oneBlock 200)).featnoise ⟨3, 10, 5⟩) = some 0 := by
    show itemOf 0 (1 / 40 * 20) = some 0
    decide +kernel
  have hwrite : (⟨3, 10, 5⟩, 51) ∈
      writes (List.replicate 17 (oneBlock 200)) ((lawn 0 3 (oneBlock 200)).stamps alwaysStamp ⟨0, 0⟩) :=
    mem_writes.mpr ⟨⟨3, 10, 5⟩, 0, oneBlock 200, mem_stamps.mpr ⟨k, hk, UInt32.le_refl 127, hitem⟩, rfl, by decide⟩
  refine ⟨⟨fun h => ?_, hsite₁, hsmall, ?_⟩, fun h => ?_, hwrite, by decide +kernel⟩
  · exact absurd (h.noUnderflow _ hsite₁) (Nat.not_le_of_lt hsmall)
  · rintro ⟨featnoise, hle, hsome⟩
    rw [itemOf_one hle] at hsome
    cases hsome
  · exact absurd (h.tabled _ hwrite).1 (by decide)

end ChunkSystem

end Distgard
