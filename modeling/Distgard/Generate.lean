import Distgard.ChunkSystem

/-!
# Generating a chunk

When a slot comes to hold a chunk, structures are stamped into it: at every cell of the
planet's ground, the noise and a generator seeded by the chunk's position decide whether a
structure stands there and which. A structure is written into the non-user map, into the
chunks next to it as well if it is wide.

## What is proved

* `generateChunk_eq` — the blocks a chunk stamps do not depend on what was stamped before;
  they are put over it.
* `lookup_generateChunks` — after chunks were generated one after the other, a cell holds
  what the last of them that stamps the cell puts there, or what it held.
* `generateChunks_order_iff` — all orders of a set of chunks give the same blocks exactly
  when no two of them put different blocks into one cell.
* `trees_dependOnOrder` — two trees at the border of two chunks do.
-/

namespace Distgard

open Lib

namespace Planets

/-- The first and the last number of a structure of the planet. -/
def getVoxelModelIndexRange (dimId : UInt32) : ℕ × ℕ :=
  match dimId with
  | 0 => (0, 13)
  | 1 => (14, 16)
  | _ => (0, 0)

/-- The blocks on which structures stand. -/
def getFloorBlocks (dimId : UInt32) : List UInt32 :=
  match dimId with
  | 0 => [3, 34]
  | 1 => [1]
  | _ => [3, 34]

end Planets

/-- A number that is not negative, as a word: rounded down, and the largest word if it is larger. -/
def toU32 (q : ℚ) : UInt32 := UInt32.ofNat (min q.floor.toNat 0xFFFFFFFF)

/-- The place of a voxel of a part of a structure, next to where the structure stands. -/
def VoxModel.rearrPoint (i : VoxModel) (v : Voxel) : IVec3 := ⟨v.x - (i.sizeX / 2 : ℕ), v.z, v.y - (i.sizeY / 2 : ℕ)⟩

/-- The block of a voxel. -/
def Voxel.block (v : Voxel) : UInt32 := (min v.colorIndex (UInt8.ofNat Blocks.getTexsLength)).toUInt32

/-- What changes while a chunk is generated. -/
structure GenState where
  /-- The chunk system. -/
  cs : ChunkSystem
  /-- How many numbers have been drawn. -/
  drawn : ℕ
  /-- The chunks stamped into. -/
  implicated : HashSet IVec2

namespace GenState

/-- Set the block of a voxel. -/
def stampVoxel (s : GenState) (spot : IVec3) (i : VoxModel) (v : Voxel) : GenState :=
  { s with
    cs := s.cs.setBlockNoSound (spot + i.rearrPoint v) v.block false
    implicated := s.implicated.insert (spotToChunkPos (spot + i.rearrPoint v)) }

/-- Stamp a structure (the source can be asked to keep the set of chunks to itself as well,
which it never is). -/
def stampHere (s : GenState) (spot : IVec3) (model : JVoxModel) : GenState :=
  model.models.foldl (fun s i => i.voxels.foldl (fun s v => s.stampVoxel spot i v) s) s

end GenState

namespace ChunkSystem

/-- The structure numbered `item`. -/
def voxelModel (cs : ChunkSystem) (item : ℕ) : Except Panic JVoxModel :=
  match cs.voxelModels with
  | none => .error .unwrap
  | some models =>
    match models[item]? with
    | some model => .ok model
    | none => .error .index

/-- The seed of the generator for a chunk: the remainders, as bytes, and `30` zeros. -/
def genSeed (cpos : IVec2) : List UInt8 :=
  UInt8.ofInt (cpos.x.tmod 255) :: UInt8.ofInt (cpos.y.tmod 255) :: List.replicate 30 0

/-- The cell is ground on which structures stand. -/
def isFloor (cs : ChunkSystem) (coord : IVec3) : Bool :=
  (Planets.getFloorBlocks cs.planetType.toUInt32).contains (cs.perlin.naturalBlockat coord)

end ChunkSystem

/-- Stamp the structure that stands at a cell, if there is one; `draws` are the numbers the
generator draws. -/
def generateAt (draws : ℕ → UInt32) (s : GenState) (coord : IVec3) : Except Panic GenState :=
  if s.cs.isFloor coord then
    let featnoise := s.cs.perlin.featureNoise ⟨coord.x * 20, coord.z * 20⟩ * 20
    if 0 < featnoise then
      let dimRange := Planets.getVoxelModelIndexRange s.cs.planetType.toUInt32
      let item := toU32 featnoise - UInt32.ofNat dimRange.1
      let item2 := draws s.drawn
      let s := { s with drawn := s.drawn + 1 }
      if item ≤ UInt32.ofNat dimRange.2 ∧ UInt32.ofNat dimRange.1 ≤ item ∧ 127 ≤ item2 then
        (s.cs.voxelModel item.toNat).map (s.stampHere coord)
      else .ok s
    else .ok s
  else .ok s

namespace ChunkSystem

/-- The cells of a chunk in which ground is looked for, in the order of the loops. -/
def generateCells (cpos : IVec2) : List IVec3 := columnCells cpos (range0 (CH_H - 40)).reverse

/-- Generate the chunk at `cpos`, and ask for the chunks stamped into to be rebuilt. -/
def generateChunk (env : Externals) (e : Entropy) (cs : ChunkSystem) (cpos : IVec2) : Except Panic ChunkSystem :=
  ((generateCells cpos).foldlM (generateAt (env.stdRng (genSeed cpos))) ⟨cs, 0, []⟩).map fun s =>
    { s.cs with genRebuildRequests := s.cs.genRebuildRequests ++ s.cs.slotsOf (e.chunks.iter s.implicated) }

end ChunkSystem

/-! ### What is written -/

/-- The cells and blocks of a structure. -/
def JVoxModel.rows (model : JVoxModel) (spot : IVec3) : List (IVec3 × UInt32) :=
  model.models.flatMap fun i => i.voxels.map fun v => (spot + i.rearrPoint v, v.block)

/-- The state after rows are written and some numbers drawn. -/
def GenState.wrote (s : GenState) (rows : List (IVec3 × UInt32)) (drawn : ℕ) : GenState :=
  { cs := { s.cs with nonuserdatamap := HashMap.insertAll rows s.cs.nonuserdatamap }
    drawn := drawn
    implicated := (rows.map fun r => spotToChunkPos r.1).foldl (fun imp c => imp.insert c) s.implicated }

namespace GenState

theorem wrote_wrote (s : GenState) (rows rows' : List (IVec3 × UInt32)) (n n' : ℕ) :
    (s.wrote rows n).wrote rows' n' = s.wrote (rows ++ rows') n' := by
  simp only [wrote, HashMap.insertAll_append, List.map_append, List.foldl_append]

theorem stampVoxel_eq (s : GenState) (spot : IVec3) (i : VoxModel) (v : Voxel) :
    s.stampVoxel spot i v = s.wrote [(spot + i.rearrPoint v, v.block)] s.drawn := rfl

/-- Stamping a structure writes its rows. -/
theorem stampHere_eq (s : GenState) (spot : IVec3) (model : JVoxModel) :
    s.stampHere spot model = s.wrote (model.rows spot) s.drawn := by
  have hvoxels : ∀ (i : VoxModel) (vs : List Voxel) (s : GenState),
      vs.foldl (fun s v => s.stampVoxel spot i v) s =
        s.wrote (vs.map fun v => (spot + i.rearrPoint v, v.block)) s.drawn := by
    intro i vs
    induction vs with
    | nil => exact fun _ => rfl
    | cons v vs ih => intro s; rw [List.foldl_cons, ih, stampVoxel_eq, wrote_wrote]; rfl
  unfold stampHere JVoxModel.rows
  induction model.models generalizing s with
  | nil => rfl
  | cons i is ih => rw [List.foldl_cons, hvoxels, ih, wrote_wrote]; rfl

end GenState

/-- The terrain is the same: noise, planet and structures. -/
structure ChunkSystem.SameTerrain (cs cs' : ChunkSystem) : Prop where
  /-- The noise. -/
  perlin : cs'.perlin = cs.perlin
  /-- The planet. -/
  planetType : cs'.planetType = cs.planetType
  /-- The structures. -/
  voxelModels : cs'.voxelModels = cs.voxelModels

theorem ChunkSystem.SameTerrain.trans {cs cs' cs'' : ChunkSystem} (h : cs.SameTerrain cs') (h' : cs'.SameTerrain cs'') :
    cs.SameTerrain cs'' :=
  ⟨h'.perlin.trans h.perlin, h'.planetType.trans h.planetType, h'.voxelModels.trans h.voxelModels⟩

theorem ChunkSystem.SameTerrain.wrote {cs : ChunkSystem} {s : GenState} (h : cs.SameTerrain s.cs)
    (rows : List (IVec3 × UInt32)) (n : ℕ) : cs.SameTerrain (s.wrote rows n).cs :=
  ⟨h.perlin, h.planetType, h.voxelModels⟩

/-- What is stamped at a cell depends on the terrain and on the number of draws alone. -/
theorem generateAt_eq (draws : ℕ → UInt32) (cs : ChunkSystem) (n : ℕ) (coord : IVec3) :
    ∃ out : Except Panic (List (IVec3 × UInt32) × ℕ), ∀ s : GenState, cs.SameTerrain s.cs → s.drawn = n →
      generateAt draws s coord = out.map fun w => s.wrote w.1 w.2 := by
  by_cases hfloor : cs.isFloor coord = true
  · set featnoise := cs.perlin.featureNoise ⟨coord.x * 20, coord.z * 20⟩ * 20 with hnoise
    set dimRange := Planets.getVoxelModelIndexRange cs.planetType.toUInt32 with hrange
    set item := toU32 featnoise - UInt32.ofNat dimRange.1 with hitem
    have hgen : ∀ s : GenState, cs.SameTerrain s.cs → s.drawn = n → generateAt draws s coord =
        if 0 < featnoise then
          if item ≤ UInt32.ofNat dimRange.2 ∧ UInt32.ofNat dimRange.1 ≤ item ∧ 127 ≤ draws n then
            (cs.voxelModel item.toNat).map (GenState.stampHere { s with drawn := n + 1 } coord)
          else .ok { s with drawn := n + 1 }
        else .ok s := by
      rintro s hs rfl
      have hfloor' : s.cs.isFloor coord = true := by
        rw [← hfloor, ChunkSystem.isFloor, ChunkSystem.isFloor, hs.perlin, hs.planetType]
      have hmodel : s.cs.voxelModel = cs.voxelModel := by
        funext k
        rw [ChunkSystem.voxelModel, ChunkSystem.voxelModel, hs.voxelModels]
      rw [generateAt, if_pos hfloor']
      simp only [hs.perlin, hs.planetType, hmodel, ← hnoise, ← hrange, ← hitem]
    by_cases hpos : 0 < featnoise
    · by_cases hcond : item ≤ UInt32.ofNat dimRange.2 ∧ UInt32.ofNat dimRange.1 ≤ item ∧ 127 ≤ draws n
      · refine ⟨(cs.voxelModel item.toNat).map fun model => (model.rows coord, n + 1), ?_⟩
        intro s hs hn
        rw [hgen s hs hn, if_pos hpos, if_pos hcond]
        cases cs.voxelModel item.toNat with
        | error p => rfl
        | ok model => exact congrArg Except.ok (GenState.stampHere_eq _ coord model)
      · refine ⟨.ok ([], n + 1), ?_⟩
        intro s hs hn
        rw [hgen s hs hn, if_pos hpos, if_neg hcond]
        rfl
    · refine ⟨.ok ([], n), ?_⟩
      intro s hs hn
      rw [hgen s hs hn, if_neg hpos, ← hn]
      rfl
  · refine ⟨.ok ([], n), ?_⟩
    intro s hs hn
    rw [generateAt, if_neg, ← hn]
    · rfl
    · rw [ChunkSystem.isFloor, hs.perlin, hs.planetType]
      exact hfloor

/-- What is stamped at a list of cells depends on the terrain and on the number of draws alone. -/
theorem foldlM_generateAt_eq (draws : ℕ → UInt32) (cs : ChunkSystem) (cells : List IVec3) (n : ℕ) :
    ∃ out : Except Panic (List (IVec3 × UInt32) × ℕ), ∀ s : GenState, cs.SameTerrain s.cs → s.drawn = n →
      cells.foldlM (generateAt draws) s = out.map fun w => s.wrote w.1 w.2 := by
  induction cells generalizing n with
  | nil =>
    refine ⟨.ok ([], n), ?_⟩
    intro s hs hn
    rw [← hn]
    rfl
  | cons coord cells ih =>
    obtain ⟨out, hout⟩ := generateAt_eq draws cs n coord
    cases out with
    | error p =>
      refine ⟨.error p, ?_⟩
      intro s hs hn
      rw [List.foldlM_cons, hout s hs hn]
      rfl
    | ok w =>
      obtain ⟨out', hout'⟩ := ih w.2
      refine ⟨out'.map fun w' => (w.1 ++ w'.1, w'.2), ?_⟩
      intro s hs hn
      rw [List.foldlM_cons, hout s hs hn]
      refine (hout' (s.wrote w.1 w.2) (hs.wrote w.1 w.2) rfl).trans ?_
      cases out' with
      | error p => rfl
      | ok w' => exact congrArg Except.ok (s.wrote_wrote w.1 w'.1 w.2 w'.2)

namespace ChunkSystem

variable (env : Externals)

/-- **The blocks a chunk stamps** do not depend on what was stamped before. -/
theorem generateChunk_eq (cs : ChunkSystem) (cpos : IVec2) :
    ∃ out : Except Panic (List (IVec3 × UInt32)), ∀ (e : Entropy) (cs' : ChunkSystem), cs.SameTerrain cs' →
      generateChunk env e cs' cpos = out.map fun rows =>
        { cs' with
          nonuserdatamap := HashMap.insertAll rows cs'.nonuserdatamap
          genRebuildRequests := cs'.genRebuildRequests ++
            cs'.slotsOf (e.chunks.iter ((rows.map fun r => spotToChunkPos r.1).foldl (fun imp c => imp.insert c) [])) } := by
  obtain ⟨out, hout⟩ := foldlM_generateAt_eq (env.stdRng (genSeed cpos)) cs (generateCells cpos) 0
  refine ⟨out.map Prod.fst, ?_⟩
  intro e cs' hcs
  rw [generateChunk, hout ⟨cs', 0, []⟩ hcs rfl]
  cases out with
  | error p => rfl
  | ok w => rfl

/-- The blocks a chunk stamps, into an empty map. -/
def stamped (cs : ChunkSystem) (cpos : IVec2) : HashMap IVec3 UInt32 :=
  match generateChunk env .plain { cs with nonuserdatamap := ∅ } cpos with
  | .ok cs' => cs'.nonuserdatamap
  | .error _ => ∅

/-- Generating the chunk, in whatever state with this terrain, does not panic. -/
def Generates (cs : ChunkSystem) (cpos : IVec2) : Prop := ∃ r, generateChunk env .plain cs cpos = .ok r

variable {env}

/-- What a chunk stamps depends on the terrain alone. -/
theorem stamped_congr {cs cs' : ChunkSystem} (hcs : cs.SameTerrain cs') (cpos : IVec2) :
    cs'.stamped env cpos = cs.stamped env cpos := by
  obtain ⟨out, hout⟩ := generateChunk_eq env cs cpos
  rw [stamped, stamped, hout .plain { cs' with nonuserdatamap := ∅ } ⟨hcs.perlin, hcs.planetType, hcs.voxelModels⟩,
    hout .plain { cs with nonuserdatamap := ∅ } ⟨rfl, rfl, rfl⟩]
  cases out with
  | error p => rfl
  | ok rows => rfl

/-- A chunk that generates does so after any others, and puts its blocks over what was there. -/
theorem Generates.generateChunk {cs cs' : ChunkSystem} {cpos : IVec2} (h : cs.Generates env cpos)
    (hcs : cs.SameTerrain cs') (e : Entropy) :
    ∃ r, generateChunk env e cs' cpos = .ok r ∧ cs.SameTerrain r ∧ r.userdatamap = cs'.userdatamap ∧
      ∀ x, r.nonuserdatamap.lookup x = ((cs.stamped env cpos).lookup x).or (cs'.nonuserdatamap.lookup x) := by
  obtain ⟨out, hout⟩ := generateChunk_eq env cs cpos
  cases out with
  | error p =>
    obtain ⟨r, hr⟩ := h
    rw [hout .plain cs ⟨rfl, rfl, rfl⟩] at hr
    cases hr
  | ok rows =>
    refine ⟨_, hout e cs' hcs, ⟨hcs.perlin, hcs.planetType, hcs.voxelModels⟩, rfl, ?_⟩
    intro x
    rw [stamped, hout .plain { cs with nonuserdatamap := ∅ } ⟨rfl, rfl, rfl⟩]
    exact HashMap.lookup_insertAll rows cs'.nonuserdatamap x

/-- What generating a chunk leaves in the non-user map. -/
theorem lookup_of_generateChunk {e : Entropy} {cs cs' r : ChunkSystem} {cpos : IVec2} (hcs : cs.SameTerrain cs')
    (h : generateChunk env e cs' cpos = .ok r) (x : IVec3) :
    r.nonuserdatamap.lookup x = ((cs.stamped env cpos).lookup x).or (cs'.nonuserdatamap.lookup x) := by
  obtain ⟨out, hout⟩ := generateChunk_eq env cs cpos
  cases out with
  | error p =>
    rw [hout e cs' hcs] at h
    cases h
  | ok rows =>
    have hgenerates : cs.Generates env cpos := ⟨_, hout .plain cs ⟨rfl, rfl, rfl⟩⟩
    obtain ⟨r', hr', -, -, hlookup⟩ := hgenerates.generateChunk hcs e
    rw [h] at hr'
    cases hr'
    exact hlookup x

/-- Generate chunks one after the other. -/
def generateChunks (env : Externals) (es : IVec2 → Entropy) (cs : ChunkSystem) (order : List IVec2) :
    Except Panic ChunkSystem :=
  order.foldlM (fun cs cpos => ChunkSystem.generateChunk env (es cpos) cs cpos) cs

/-- **The last chunk wins**: after chunks were generated one after the other, a cell holds
what the last of them that stamps the cell puts there, or what it held. -/
theorem lookup_generateChunks {cs cs' : ChunkSystem} {order : List IVec2} (h : ∀ p ∈ order, cs.Generates env p)
    (hcs : cs.SameTerrain cs') (es : IVec2 → Entropy) :
    ∃ r, generateChunks env es cs' order = .ok r ∧ r.perlin = cs'.perlin ∧ r.userdatamap = cs'.userdatamap ∧
      ∀ x, r.nonuserdatamap.lookup x =
        (order.reverse.findSome? fun p => (cs.stamped env p).lookup x).or (cs'.nonuserdatamap.lookup x) := by
  induction order generalizing cs' with
  | nil => exact ⟨cs', rfl, rfl, rfl, fun x => rfl⟩
  | cons p order ih =>
    obtain ⟨r, hr, hterrain, hudm, hlookup⟩ := (h p (List.mem_cons_self ..)).generateChunk hcs (es p)
    obtain ⟨r', hr', hperlin', hudm', hlookup'⟩ := ih (fun q hq => h q (List.mem_cons_of_mem _ hq)) hterrain
    refine ⟨r', ?_, ?_, hudm'.trans hudm, ?_⟩
    · rw [generateChunks, List.foldlM_cons, hr]
      exact hr'
    · rw [hperlin', hterrain.perlin, hcs.perlin]
    · intro x
      rw [hlookup', hlookup, List.reverse_cons, List.findSome?_append, Option.or_assoc]
      simp only [List.findSome?_cons, List.findSome?_nil]
      cases (cs.stamped env p).lookup x <;> rfl

/-- The chunks agree on the blocks of the cells that several of them stamp. -/
def Compatible (env : Externals) (cs : ChunkSystem) (chunks : List IVec2) : Prop :=
  ∀ p ∈ chunks, ∀ q ∈ chunks, ∀ x v w, (cs.stamped env p).lookup x = some v → (cs.stamped env q).lookup x = some w →
    v = w

/-- Among chunks that agree, whichever is found first says the same. -/
theorem Compatible.findSome?_eq {cs : ChunkSystem} {chunks order order' : List IVec2} (h : cs.Compatible env chunks)
    (ho : order.Perm chunks) (ho' : order'.Perm chunks) (x : IVec3) :
    (order.findSome? fun p => (cs.stamped env p).lookup x) = order'.findSome? fun p => (cs.stamped env p).lookup x := by
  have hsome : ∀ {l : List IVec2} {v : UInt32}, l.Perm chunks →
      (l.findSome? fun p => (cs.stamped env p).lookup x) = some v →
      ∃ p ∈ chunks, (cs.stamped env p).lookup x = some v := fun hl hv => by
    obtain ⟨p, hp, hpv⟩ := List.exists_of_findSome?_eq_some hv
    exact ⟨p, hl.mem_iff.mp hp, hpv⟩
  have hnone : ∀ {l : List IVec2}, l.Perm chunks → (l.findSome? fun p => (cs.stamped env p).lookup x) = none →
      ∀ p ∈ chunks, (cs.stamped env p).lookup x = none := fun hl hv p hp =>
    List.findSome?_eq_none_iff.mp hv p (hl.mem_iff.mpr hp)
  cases hv : order.findSome? fun p => (cs.stamped env p).lookup x with
  | none => exact (List.findSome?_eq_none_iff.mpr fun p hp => hnone ho hv p (ho'.mem_iff.mp hp)).symm
  | some v =>
    obtain ⟨p, hp, hpv⟩ := hsome ho hv
    cases hw : order'.findSome? fun p => (cs.stamped env p).lookup x with
    | none =>
      have := hnone ho' hw p hp
      rw [hpv] at this
      cases this
    | some w =>
      obtain ⟨q, hq, hqw⟩ := hsome ho' hw
      rw [h p hp q hq x v w hpv hqw]

/-- A chunk that is generated last puts its blocks over all others. -/
theorem lookup_of_last {cs : ChunkSystem} {chunks : List IVec2} (h : ∀ p ∈ chunks, cs.Generates env p)
    (es : IVec2 → Entropy) {p : IVec2} (hp : p ∈ chunks) {x : IVec3} {v : UInt32}
    (hv : (cs.stamped env p).lookup x = some v) :
    (chunks.erase p ++ [p]).Perm chunks ∧
      ∃ r, generateChunks env es cs (chunks.erase p ++ [p]) = .ok r ∧ r.nonuserdatamap.lookup x = some v := by
  have hperm : (chunks.erase p ++ [p]).Perm chunks :=
    (List.perm_append_comm.trans (List.perm_cons_erase hp).symm)
  obtain ⟨r, hr, -, -, hlookup⟩ := lookup_generateChunks (fun q hq => h q (hperm.mem_iff.mp hq))
    (⟨rfl, rfl, rfl⟩ : cs.SameTerrain cs) es
  refine ⟨hperm, r, hr, ?_⟩
  rw [hlookup, List.reverse_append, List.reverse_singleton, List.singleton_append, List.findSome?_cons, hv]
  rfl

/-- **Exploration in any order**: the last chunk that stamps a cell decides it, so that all
orders of generating a set of chunks give the same blocks exactly when no two of the chunks
put different blocks into one cell. A cell of a chunk is a product and a sum of `i32`, which do not
wrap while the chunk's coordinates stay below `2 ^ 24`. -/
theorem generateChunks_order_iff (env : Externals) (cs : ChunkSystem) (chunks : List IVec2)
    (hok : ∀ p ∈ chunks, cs.Generates env p) :
    ((∀ es es' order order' r r', order.Perm chunks → order'.Perm chunks →
        generateChunks env es cs order = .ok r → generateChunks env es' cs order' = .ok r' →
        r.nonuserdatamap = r'.nonuserdatamap ∧ ∀ x, r.blockat x = r'.blockat x) ↔ cs.Compatible env chunks) ∧
      ∀ es order, order.Perm chunks → ∃ r, generateChunks env es cs order = .ok r ∧
        ∀ x, r.nonuserdatamap.lookup x =
          (order.reverse.findSome? fun p => (cs.stamped env p).lookup x).or (cs.nonuserdatamap.lookup x) := by
  have hrun : ∀ {order : List IVec2}, order.Perm chunks → ∀ es, ∃ r, generateChunks env es cs order = .ok r ∧
      r.perlin = cs.perlin ∧ r.userdatamap = cs.userdatamap ∧ ∀ x, r.nonuserdatamap.lookup x =
        (order.reverse.findSome? fun p => (cs.stamped env p).lookup x).or (cs.nonuserdatamap.lookup x) :=
    fun ho es => lookup_generateChunks (fun p hp => hok p (ho.mem_iff.mp hp)) ⟨rfl, rfl, rfl⟩ es
  refine ⟨⟨fun h p hp q hq x v w hv hw => ?_, fun h es es' order order' r r' ho ho' hr hr' => ?_⟩, fun es order ho => ?_⟩
  · obtain ⟨hop, r, hr, hrv⟩ := lookup_of_last hok (fun _ => .plain) hp hv
    obtain ⟨hoq, r', hr', hrw⟩ := lookup_of_last hok (fun _ => .plain) hq hw
    have := (h _ _ _ _ r r' hop hoq hr hr').1
    rw [this, hrw] at hrv
    exact (Option.some.inj hrv).symm
  · obtain ⟨r₁, hr₁, hperlin, hudm, hlookup⟩ := hrun ho es
    obtain ⟨r₂, hr₂, hperlin', hudm', hlookup'⟩ := hrun ho' es'
    rw [hr] at hr₁
    rw [hr'] at hr₂
    cases hr₁
    cases hr₂
    have hmap : r.nonuserdatamap = r'.nonuserdatamap := Finmap.ext_lookup fun x => by
      rw [hlookup, hlookup', h.findSome?_eq ((List.reverse_perm order).trans ho) ((List.reverse_perm order').trans ho')]
    exact ⟨hmap, fun x => by rw [blockat, blockat, hmap, hudm, hudm', hperlin, hperlin']⟩
  · obtain ⟨r, hr, -, -, hlookup⟩ := hrun ho es
    exact ⟨r, hr, hlookup⟩

/-! ### Chunks with little ground -/

/-- The cells that are no ground are passed over. -/
theorem foldlM_generateAt_filter (draws : ℕ → UInt32) (cs : ChunkSystem) (cells : List IVec3) {s : GenState}
    (hs : cs.SameTerrain s.cs) :
    cells.foldlM (generateAt draws) s = (cells.filter cs.isFloor).foldlM (generateAt draws) s := by
  induction cells generalizing s with
  | nil => rfl
  | cons coord cells ih =>
    rw [List.foldlM_cons]
    by_cases hfloor : cs.isFloor coord = true
    · rw [List.filter_cons_of_pos hfloor, List.foldlM_cons]
      obtain ⟨out, hout⟩ := generateAt_eq draws cs s.drawn coord
      rw [hout s hs rfl]
      cases out with
      | error p => rfl
      | ok w => exact ih (hs.wrote w.1 w.2)
    · have hfloor' : s.cs.isFloor coord = false := by
        rw [isFloor, hs.perlin, hs.planetType]
        simpa [isFloor] using hfloor
      rw [List.filter_cons_of_neg hfloor, generateAt, if_neg (by rw [hfloor']; decide)]
      exact ih hs

/-- A chunk without ground stays as it is. -/
theorem generateChunk_of_noFloor (env : Externals) (e : Entropy) {cs : ChunkSystem} {cpos : IVec2}
    (h : ∀ coord ∈ generateCells cpos, cs.isFloor coord = false) : generateChunk env e cs cpos = .ok cs := by
  have hnone : (generateCells cpos).filter cs.isFloor = [] :=
    List.filter_eq_nil_iff.mpr fun coord hc => by rw [h coord hc]; decide
  rw [generateChunk, foldlM_generateAt_filter _ cs _ ⟨rfl, rfl, rfl⟩, hnone]
  simp [List.foldlM, slotsOf, pure, Except.pure, Except.map]

/-- In a world of air there is no ground. -/
theorem generateChunk_barren (env : Externals) (e : Entropy) {cs : ChunkSystem} (h : cs.perlin = .barren)
    (cpos : IVec2) : generateChunk env e cs cpos = .ok cs := by
  apply generateChunk_of_noFloor env e
  intro coord _
  have hair : cs.isFloor coord = (Planets.getFloorBlocks cs.planetType.toUInt32).contains 0 := by
    rw [isFloor, h]
    rfl
  rw [hair]
  unfold Planets.getFloorBlocks
  split <;> rfl

/-- Of a chunk with one cell of ground, only that cell matters. -/
theorem generateChunk_of_oneFloor (env : Externals) (e : Entropy) {cs : ChunkSystem} {cpos : IVec2} {spot : IVec3}
    (hspot : spotToChunkPos spot = cpos ∧ 0 ≤ spot.y ∧ spot.y < CH_H - 40)
    (h : ∀ coord, spotToChunkPos coord = cpos → (cs.isFloor coord = true ↔ coord = spot)) :
    generateChunk env e cs cpos = (generateAt (env.stdRng (genSeed cpos)) ⟨cs, 0, []⟩ spot).map fun s =>
      { s.cs with genRebuildRequests := s.cs.genRebuildRequests ++ s.cs.slotsOf (e.chunks.iter s.implicated) } := by
  have hmem : spot ∈ generateCells cpos :=
    mem_columnCells.mpr ⟨hspot.1, List.mem_reverse.mpr (mem_range0.mpr hspot.2)⟩
  have hnodup : (generateCells cpos).Nodup :=
    nodup_columnCells cpos (List.nodup_reverse.mpr (nodup_range0 _))
  have hone : (generateCells cpos).filter cs.isFloor = [spot] := by
    rw [List.filter_congr (q := (· == spot)), List.filter_beq, List.count_eq_one_of_mem hnodup hmem]
    · rfl
    · intro coord hc
      rw [Bool.eq_iff_iff, h coord (mem_columnCells.mp hc).1, beq_iff_eq]
  rw [generateChunk, foldlM_generateAt_filter _ cs _ ⟨rfl, rfl, rfl⟩, hone, List.foldlM_cons]
  cases generateAt (env.stdRng (genSeed cpos)) ⟨cs, 0, []⟩ spot <;> rfl

/-- What is stamped can be read off a run from an empty map. -/
theorem stamped_eq {env : Externals} {cs r : ChunkSystem} {cpos : IVec2} (hempty : cs.nonuserdatamap = ∅)
    (h : generateChunk env .plain cs cpos = .ok r) : cs.stamped env cpos = r.nonuserdatamap := by
  have hcs : { cs with nonuserdatamap := ∅ } = cs := by rw [← hempty]
  rw [stamped, hcs, h]

/-- What a chunk with one cell of ground stamps, read off the structure there. -/
theorem stamped_of_oneFloor {env : Externals} {cs : ChunkSystem} {cpos : IVec2} {spot x : IVec3} {v : Option UInt32}
    (hempty : cs.nonuserdatamap = ∅) (hspot : spotToChunkPos spot = cpos ∧ 0 ≤ spot.y ∧ spot.y < CH_H - 40)
    (h : ∀ coord, spotToChunkPos coord = cpos → (cs.isFloor coord = true ↔ coord = spot))
    (hgen : ((generateAt (env.stdRng (genSeed cpos)) ⟨cs, 0, []⟩ spot).map fun s => s.cs.nonuserdatamap.lookup x) =
      .ok v) :
    cs.Generates env cpos ∧ (cs.stamped env cpos).lookup x = v := by
  cases hrun : generateAt (env.stdRng (genSeed cpos)) ⟨cs, 0, []⟩ spot with
  | error p =>
    rw [hrun] at hgen
    cases hgen
  | ok s =>
    rw [hrun] at hgen
    have hone := generateChunk_of_oneFloor env .plain hspot h
    rw [hrun] at hone
    refine ⟨⟨_, hone⟩, ?_⟩
    rw [stamped_eq hempty hone]
    exact Except.ok.inj hgen

/-- Two cells of grass, next to each other and in different chunks; on the western one stands
a structure that reaches over the border, on the eastern one another. -/
def treesWorld : ChunkSystem :=
  { barren with
    perlin := ⟨fun c => if c = ⟨14, 10, 0⟩ ∨ c = ⟨15, 10, 0⟩ then 3 else 0,
      fun p => if p.x = 280 then 1 / 40 else 3 / 40⟩
    voxelModels := some [⟨[⟨0, 0, [⟨1, 0, 0, 5⟩]⟩]⟩, ⟨[⟨0, 0, [⟨0, 0, 0, 6⟩]⟩]⟩] }

/-- A generator that always draws the largest number. -/
def alwaysStamp : Externals := { Externals.plain with stdRng := fun _ _ => 127 }

theorem isFloor_treesWorld {coord : IVec3} :
    treesWorld.isFloor coord = true ↔ coord = ⟨14, 10, 0⟩ ∨ coord = ⟨15, 10, 0⟩ := by
  have hfloor : treesWorld.isFloor coord =
      [3, 34].contains (if coord = ⟨14, 10, 0⟩ ∨ coord = ⟨15, 10, 0⟩ then (3 : UInt32) else 0) := rfl
  rw [hfloor]
  by_cases h : coord = ⟨14, 10, 0⟩ ∨ coord = ⟨15, 10, 0⟩
  · simp [h]
  · simp [h]

/-- Far to the east there is no ground. -/
theorem generateChunk_farEast (e : Entropy) :
    generateChunk alwaysStamp e treesWorld ⟨7, 0⟩ = .ok treesWorld := by
  apply generateChunk_of_noFloor alwaysStamp e
  intro coord hc
  have hpos := (mem_columnCells.mp hc).1
  rw [← Bool.not_eq_true, isFloor_treesWorld]
  rintro (rfl | rfl)
  · exact absurd hpos (by decide)
  · exact absurd hpos (by decide)

/-- Each chunk stamps the cell at the border, with a block of its own. -/
theorem stamped_treesWorld :
    (treesWorld.Generates alwaysStamp ⟨0, 0⟩ ∧ (treesWorld.stamped alwaysStamp ⟨0, 0⟩).lookup ⟨15, 10, 0⟩ = some 5) ∧
      treesWorld.Generates alwaysStamp ⟨1, 0⟩ ∧
        (treesWorld.stamped alwaysStamp ⟨1, 0⟩).lookup ⟨15, 10, 0⟩ = some 6 := by
  have hwest : spotToChunkPos ⟨14, 10, 0⟩ = ⟨0, 0⟩ ∧ 0 ≤ (10 : ℤ) ∧ (10 : ℤ) < CH_H - 40 := by decide
  have heast : spotToChunkPos ⟨15, 10, 0⟩ = ⟨1, 0⟩ ∧ 0 ≤ (10 : ℤ) ∧ (10 : ℤ) < CH_H - 40 := by decide
  refine ⟨stamped_of_oneFloor rfl hwest (fun coord hc => ?_) (by decide +kernel),
    stamped_of_oneFloor rfl heast (fun coord hc => ?_) (by decide +kernel)⟩
  · rw [isFloor_treesWorld]
    refine ⟨fun h => h.resolve_right ?_, .inl⟩
    rintro rfl
    exact absurd hc (by decide)
  · rw [isFloor_treesWorld]
    refine ⟨fun h => h.resolve_left ?_, .inr⟩
    rintro rfl
    exact absurd hc (by decide)

/-- Walking east, the block of the eastern tree is in the cell at the border; walking west,
that of the western. -/
theorem trees_dependOnOrder :
    treesWorld.nonuserdatamap = ∅ ∧ [(⟨1, 0⟩ : IVec2), ⟨0, 0⟩].Perm [⟨0, 0⟩, ⟨1, 0⟩] ∧
      ∃ r r', generateChunks alwaysStamp (fun _ => .plain) treesWorld [⟨0, 0⟩, ⟨1, 0⟩] = .ok r ∧
        generateChunks alwaysStamp (fun _ => .plain) treesWorld [⟨1, 0⟩, ⟨0, 0⟩] = .ok r' ∧
        r.nonuserdatamap.lookup ⟨15, 10, 0⟩ = some 6 ∧ r'.nonuserdatamap.lookup ⟨15, 10, 0⟩ = some 5 := by
  obtain ⟨⟨hwest, hfive⟩, heast, hsix⟩ := stamped_treesWorld
  have hboth : ∀ p ∈ [(⟨0, 0⟩ : IVec2), ⟨1, 0⟩], treesWorld.Generates alwaysStamp p := by
    simp only [List.mem_cons, List.not_mem_nil, or_false, forall_eq_or_imp, forall_eq]
    exact ⟨hwest, heast⟩
  have hperm : [(⟨1, 0⟩ : IVec2), ⟨0, 0⟩].Perm [⟨0, 0⟩, ⟨1, 0⟩] := List.Perm.swap ..
  obtain ⟨r, hr, -, -, hlookup⟩ := lookup_generateChunks hboth
    (⟨rfl, rfl, rfl⟩ : treesWorld.SameTerrain treesWorld) fun _ => .plain
  obtain ⟨r', hr', -, -, hlookup'⟩ := lookup_generateChunks (fun p hp => hboth p (hperm.mem_iff.mp hp))
    (⟨rfl, rfl, rfl⟩ : treesWorld.SameTerrain treesWorld) fun _ => .plain
  refine ⟨rfl, hperm, r, r', hr, hr', ?_, ?_⟩
  · rw [hlookup]
    simp [hsix]
  · rw [hlookup']
    simp [hfive]

/-- The western chunk and one far to the east can be explored in either order. -/
theorem trees_farApart :
    ∃ r r', generateChunks alwaysStamp (fun _ => .plain) treesWorld [⟨0, 0⟩, ⟨7, 0⟩] = .ok r ∧
      generateChunks alwaysStamp (fun _ => .plain) treesWorld [⟨7, 0⟩, ⟨0, 0⟩] = .ok r' ∧
      r.nonuserdatamap = r'.nonuserdatamap := by
  have hstamped : treesWorld.stamped alwaysStamp ⟨7, 0⟩ = ∅ := stamped_eq rfl (generateChunk_farEast .plain)
  have hboth : ∀ p ∈ [(⟨0, 0⟩ : IVec2), ⟨7, 0⟩], treesWorld.Generates alwaysStamp p := by
    simp only [List.mem_cons, List.not_mem_nil, or_false, forall_eq_or_imp, forall_eq]
    exact ⟨stamped_treesWorld.1.1, treesWorld, generateChunk_farEast .plain⟩
  have horders := generateChunks_order_iff alwaysStamp treesWorld [⟨0, 0⟩, ⟨7, 0⟩] hboth
  obtain ⟨r, hr, -⟩ := horders.2 (fun _ => .plain) [⟨0, 0⟩, ⟨7, 0⟩] (.refl _)
  obtain ⟨r', hr', -⟩ := horders.2 (fun _ => .plain) [⟨7, 0⟩, ⟨0, 0⟩] (.swap ..)
  refine ⟨r, r', hr, hr', (horders.1.mpr ?_ _ _ _ _ r r' (.refl _) (.swap ..) hr hr').1⟩
  intro p hp q hq x v w hv hw
  simp only [List.mem_cons, List.not_mem_nil, or_false] at hp hq
  rcases hp with rfl | rfl <;> rcases hq with rfl | rfl <;> simp_all

end ChunkSystem

end Distgard
