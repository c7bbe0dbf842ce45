import Distgard.Automata
import Distgard.Rebuild

/-!
# Coming back to a chunk

A chunk is generated again each time some slot comes to hold it, over whatever has been written
since into the map of all that is not set by users: by chunks next to it, by growth and by flowing
water.

## What is proved

* `blockat_generateChunk` — what generating a chunk does to the blocks.
* `preserved_iff` — generating it again changes nothing exactly when each cell that it stamps shows
  the block stamped, or one that the user set.
* `reenter_iff` — in every run of generations, edits and drained changes, this is true of all
  generated chunks in every state exactly when no turn puts another block into a cell that one of
  them stamps and that the user has not set.
-/

namespace Distgard

open Lib ChunkSystem Automata

namespace ChunkSystem

/-- **What generating a chunk does to the blocks**: the cells that it stamps and that the user has not
set show the block stamped. -/
theorem blockat_generateChunk {env : Externals} {e : Entropy} {cs r : ChunkSystem} {cpos : IVec2}
    (h : generateChunk env e cs cpos = .ok r) (x : IVec3) :
    r.blockat x = if x ∈ cs.userdatamap then cs.blockat x else ((cs.stamped env cpos).lookup x).getD (cs.blockat x) := by
  obtain ⟨rows, slots, hgenerated, -⟩ := generateChunk_spec h
  have hudm : r.userdatamap = cs.userdatamap := by rw [hgenerated]
  have hperlin : r.perlin = cs.perlin := by rw [hgenerated]
  unfold blockat _blockat
  rw [hudm, hperlin, lookup_of_generateChunk ⟨rfl, rfl, rfl⟩ h x]
  cases hu : cs.userdatamap.lookup x with
  | some id => rw [if_pos (Finmap.mem_iff.mpr ⟨id, hu⟩)]
  | none =>
    rw [if_neg (Finmap.lookup_eq_none.mp hu)]
    cases (cs.stamped env cpos).lookup x with
    | some v => rfl
    | none => rfl

/-- A chunk that generates with some accidents does so with others. -/
theorem generates_of_generateChunk {env : Externals} {e : Entropy} {cs r : ChunkSystem} {cpos : IVec2}
    (h : generateChunk env e cs cpos = .ok r) : cs.Generates env cpos := by
  obtain ⟨out, hout⟩ := generateChunk_eq env cs cpos
  rw [hout e cs ⟨rfl, rfl, rfl⟩] at h
  cases out with
  | error p => cases h
  | ok rows => exact ⟨_, hout .plain cs ⟨rfl, rfl, rfl⟩⟩

/-- The terrain is as it was after a chunk is generated. -/
theorem sameTerrain_generateChunk {env : Externals} {e : Entropy} {cs r : ChunkSystem} {cpos : IVec2}
    (h : generateChunk env e cs cpos = .ok r) : cs.SameTerrain r ∧ r.userdatamap = cs.userdatamap := by
  obtain ⟨rows, slots, hgenerated, -⟩ := generateChunk_spec h
  rw [hgenerated]
  exact ⟨⟨rfl, rfl, rfl⟩, rfl⟩

end ChunkSystem

/-- The world, and the chunks that have been generated. -/
structure Explored where
  /-- The world. -/
  cs : ChunkSystem
  /-- The chunks generated. -/
  generated : List IVec2

namespace Explored

/-- What happens to the blocks. -/
inductive Turn where
  /-- A chunk is generated. -/
  | generate (e : Entropy) (cpos : IVec2)
  /-- A user sets a block. -/
  | edit (spot : IVec3) (block : UInt32)
  /-- A change of a queued set is drained. -/
  | drained (change : AutomataChange)

variable (env : Externals)

/-- The world after a turn. -/
def turn (s : Explored) : Turn → Except Panic Explored
  | .generate e cpos => (s.cs.generateChunk env e cpos).map fun cs => ⟨cs, cpos :: s.generated⟩
  | .edit spot block => .ok ⟨s.cs.setBlock spot block true, s.generated⟩
  | .drained change => .ok ⟨(applyChange (s.cs, []) change).1, s.generated⟩

/-- A run: its turns, each with the world before it, and the world at the end. -/
inductive Passes : Explored → List (Explored × Turn) → Explored → Prop
  /-- Nothing happens. -/
  | done (s : Explored) : Passes s [] s
  /-- A turn, and then others. -/
  | turned {s s' s'' : Explored} {t : Turn} {log : List (Explored × Turn)} : s.turn env t = .ok s' → Passes s' log s'' →
      Passes s ((s, t) :: log) s''

/-- Generating any of the generated chunks again returns, and leaves all blocks as they are. -/
def Preserved (s : Explored) : Prop :=
  ∀ c ∈ s.generated, ∀ e, ∃ r, s.cs.generateChunk env e c = .ok r ∧ ∀ x, r.blockat x = s.cs.blockat x

/-- A turn puts no other block into a cell that a generated chunk stamps and that the user has not
set: a chunk that is generated stamps none there, and a drained change that takes effect sets none. -/
def Harmless (s : Explored) : Turn → Prop
  | .generate _ p => ∀ c ∈ s.generated, ∀ x v w, x ∉ s.cs.userdatamap → (s.cs.stamped env c).lookup x = some v →
      (s.cs.stamped env p).lookup x = some w → v = w
  | .edit _ _ => True
  | .drained change => TakesEffect s.cs change → ∀ c ∈ s.generated, ∀ v,
      (s.cs.stamped env c).lookup change.spot = some v → v = change.changeto

/-- The generated chunks can be generated. -/
def Generable (s : Explored) : Prop := ∀ c ∈ s.generated, s.cs.Generates env c

variable {env} {s s' : Explored}

/-- **What it takes** for generating chunks again to change nothing: each cell that one of them stamps
shows the block stamped, unless the user has set it. -/
theorem preserved_iff (hs : s.Generable env) : s.Preserved env ↔ ∀ c ∈ s.generated, ∀ x v,
    (s.cs.stamped env c).lookup x = some v → x ∉ s.cs.userdatamap → s.cs.blockat x = v := by
  constructor
  · intro h c hc x v hv hx
    obtain ⟨r, hr, hsame⟩ := h c hc .plain
    rw [← hsame, blockat_generateChunk hr, if_neg hx, hv]
    rfl
  · intro h c hc e
    obtain ⟨r, hr, -⟩ := (hs c hc).generateChunk ⟨rfl, rfl, rfl⟩ e
    refine ⟨r, hr, ?_⟩
    intro x
    rw [blockat_generateChunk hr]
    split
    · rfl
    · next hx =>
      cases hv : (s.cs.stamped env c).lookup x with
      | none => rfl
      | some v => exact (h c hc x v hv hx).symm

theorem turn_generate {e : Entropy} {p : IVec2} (h : s.turn env (.generate e p) = .ok s') :
    ∃ r, s.cs.generateChunk env e p = .ok r ∧ s' = ⟨r, p :: s.generated⟩ := by
  rw [turn] at h
  cases hr : s.cs.generateChunk env e p with
  | error panic =>
    rw [hr] at h
    cases h
  | ok r =>
    rw [hr] at h
    cases h
    exact ⟨r, rfl, rfl⟩

/-- The terrain is as it was after a turn. -/
theorem sameTerrain_turn {t : Turn} (h : s.turn env t = .ok s') : s.cs.SameTerrain s'.cs := by
  cases t with
  | generate e p =>
    obtain ⟨r, hr, rfl⟩ := turn_generate h
    exact (sameTerrain_generateChunk hr).1
  | edit spot block =>
    cases h
    exact ⟨rfl, rfl, rfl⟩
  | drained change =>
    cases h
    unfold applyChange setBlockNoSound
    split <;> exact ⟨rfl, rfl, rfl⟩

/-- The generated chunks can still be generated after a turn. -/
theorem Generable.turn {t : Turn} (hs : s.Generable env) (h : s.turn env t = .ok s') : s'.Generable env := by
  have hterrain := sameTerrain_turn h
  have hkept : ∀ {c}, s.cs.Generates env c → s'.cs.Generates env c := by
    intro c hc
    obtain ⟨r, hr, -⟩ := hc.generateChunk hterrain .plain
    exact ⟨r, hr⟩
  cases t with
  | generate e p =>
    obtain ⟨r, hr, rfl⟩ := turn_generate h
    intro c hc
    rcases List.mem_cons.mp hc with rfl | hc
    · exact hkept (generates_of_generateChunk hr)
    · exact hkept (hs c hc)
  | edit spot block =>
    cases h
    exact fun c hc => hkept (hs c hc)
  | drained change =>
    cases h
    exact fun c hc => hkept (hs c hc)

/-- **One turn**: where generating chunks again changes nothing, it does so after the turn exactly
when the turn is harmless. -/
theorem preserved_turn_iff {t : Turn} (hs : s.Generable env) (hp : s.Preserved env) (h : s.turn env t = .ok s') :
    s'.Preserved env ↔ s.Harmless env t := by
  have hstamped : ∀ c, s'.cs.stamped env c = s.cs.stamped env c := stamped_congr (sameTerrain_turn h)
  rw [preserved_iff (hs.turn h)]
  rw [preserved_iff hs] at hp
  simp only [hstamped]
  cases t with
  | generate e p =>
    obtain ⟨r, hr, rfl⟩ := turn_generate h
    have hudm : r.userdatamap = s.cs.userdatamap := (sameTerrain_generateChunk hr).2
    have hshown : ∀ x, x ∉ s.cs.userdatamap → r.blockat x = ((s.cs.stamped env p).lookup x).getD (s.cs.blockat x) := by
      intro x hx
      rw [blockat_generateChunk hr, if_neg hx]
    simp only [hudm]
    constructor
    · intro hall c hc x v w hx hv hw
      have hblock := hall c (List.mem_cons_of_mem _ hc) x v hv hx
      rw [hshown x hx, hw] at hblock
      exact hblock.symm
    · intro hharmless c hc x v hv hx
      rw [hshown x hx]
      cases hw : (s.cs.stamped env p).lookup x with
      | none =>
        rcases List.mem_cons.mp hc with rfl | hc
        · rw [hv] at hw
          cases hw
        · exact hp c hc x v hv hx
      | some w =>
        rcases List.mem_cons.mp hc with rfl | hc
        · rw [hv] at hw
          cases hw
          rfl
        · exact (hharmless c hc x v w hx hv hw).symm
  | edit spot block =>
    cases h
    refine iff_of_true ?_ trivial
    intro c hc x v hv hx
    have hudm : (s.cs.setBlock spot block true).userdatamap = s.cs.userdatamap.insert spot block := rfl
    rw [hudm, Finmap.mem_insert, not_or] at hx
    rw [setBlock, blockat_setBlockNoSound_user, if_neg hx.1]
    exact hp c hc x v hv hx.2
  | drained change =>
    cases h
    simp only [userdatamap_applyChange]
    constructor
    · intro hall htakes c hc v hv
      have hblock := hall c hc change.spot v hv htakes.2
      rw [blockat_applyChange, if_pos ⟨rfl, htakes⟩] at hblock
      exact hblock.symm
    · intro hharmless c hc x v hv hx
      rw [blockat_applyChange]
      split
      · next htakes =>
        obtain ⟨rfl, htakes⟩ := htakes
        exact (hharmless htakes c hc v hv).symm
      · exact hp c hc x v hv hx

/-- Where generating chunks again changes nothing, a slot that comes to hold one of them leaves all blocks
as they are. -/
theorem Preserved.moveAndRebuild (h : s.Preserved env) {c : IVec2} (hc : c ∈ s.generated) {e : Entropy} {index : ℕ}
    {cs' : ChunkSystem} (hmove : s.cs.moveAndRebuild env e index c = .ok cs') (x : IVec3) :
    cs'.blockat x = s.cs.blockat x := by
  have hrebuild : ∀ {cs cs' : ChunkSystem} {index : ℕ} {light : Bool}, cs.rebuildIndex env e index false light = .ok cs' →
      cs'.blockat x = cs.blockat x := by
    intro cs cs' index light hrebuild
    obtain ⟨chunk, geo, -, -, heq⟩ := rebuildIndex_spec hrebuild
    rw [heq]
    rfl
  rcases moveAndRebuild_cases hmove with ⟨cf, -, hsame⟩ | ⟨-, placed, generated, hplace, hgenerate, hbuild⟩
  · exact hrebuild hsame
  · obtain ⟨chunk, geo, -, -, hplaced⟩ := place_spec hplace
    obtain ⟨r, hr, hblocks⟩ := h c hc e
    have hterrain : s.cs.SameTerrain placed := by
      rw [hplaced]
      exact ⟨rfl, rfl, rfl⟩
    have hbefore : placed.blockat x = s.cs.blockat x ∧ placed.userdatamap = s.cs.userdatamap := by
      rw [hplaced]
      exact ⟨rfl, rfl⟩
    -- what is stamped does not depend on which slot holds the chunk
    rw [hrebuild hbuild, blockat_generateChunk hgenerate, stamped_congr hterrain, hbefore.1, hbefore.2,
      ← blockat_generateChunk hr, hblocks]

/-- The first world of a run is one of its worlds. -/
theorem Passes.preserved_head {log : List (Explored × Turn)} (h : Passes env s log s')
    (hlog : ∀ d ∈ log, d.1.Preserved env) (hend : s'.Preserved env) : s.Preserved env := by
  cases h with
  | done => exact hend
  | turned ht _ => exact hlog _ List.mem_cons_self

/-- **Coming back to a chunk**: in every run of generations, edits and drained changes, generating any
of the generated chunks again changes nothing in any state exactly when every turn is harmless. No
sum of coordinates wraps in the source while they are below `2 ^ 24`. -/
theorem reenter_iff (env : Externals) (cs : ChunkSystem) {log : List (Explored × Turn)} {s : Explored}
    (h : Passes env ⟨cs, []⟩ log s) : ((∀ d ∈ log, d.1.Preserved env) ∧ s.Preserved env) ↔
      ∀ d ∈ log, d.1.Harmless env d.2 := by
  have hrun : ∀ {s s' : Explored} {log : List (Explored × Turn)}, Passes env s log s' → s.Generable env →
      s.Preserved env → (((∀ d ∈ log, d.1.Preserved env) ∧ s'.Preserved env) ↔ ∀ d ∈ log, d.1.Harmless env d.2) := by
    intro s s' log h
    induction h with
    | done s =>
      intro _ hp
      simp [hp]
    | @turned s s' s'' t log ht hrest ih =>
      intro hs hp
      have hturn := preserved_turn_iff hs hp ht
      simp only [List.forall_mem_cons]
      constructor
      · rintro ⟨⟨-, hlog⟩, hend⟩
        have hnext := hrest.preserved_head hlog hend
        exact ⟨hturn.mp hnext, (ih (hs.turn ht) hnext).mp ⟨hlog, hend⟩⟩
      · rintro ⟨hharmless, hlog⟩
        have hnext := hturn.mpr hharmless
        obtain ⟨hall, hend⟩ := (ih (hs.turn ht) hnext).mpr hlog
        exact ⟨⟨hp, hall⟩, hend⟩
  apply hrun h
  · intro c hc
    cases hc
  · intro c hc
    cases hc

/-! ### A leaf that snows over -/

/-- A cell of grass; on it stands a structure of one leaf. -/
def leafWorld : ChunkSystem :=
  { barren with
    perlin := ⟨fun c => if c = ⟨7, 10, 7⟩ then 3 else 0, fun _ => 1 / 40⟩
    voxelModels := some [⟨[⟨0, 0, [⟨0, 0, 1, 7⟩]⟩]⟩] }

theorem isFloor_leafWorld {coord : IVec3} : leafWorld.isFloor coord = true ↔ coord = ⟨7, 10, 7⟩ := by
  have hfloor : leafWorld.isFloor coord = [3, 34].contains (if coord = ⟨7, 10, 7⟩ then (3 : UInt32) else 0) := rfl
  rw [hfloor]
  by_cases h : coord = ⟨7, 10, 7⟩
  · simp [h]
  · simp [h]

/-- The chunk stamps the leaf, and not the cells below and above. -/
theorem stamped_leafWorld : leafWorld.Generates alwaysStamp ⟨0, 0⟩ ∧
    (leafWorld.stamped alwaysStamp ⟨0, 0⟩).lookup ⟨7, 11, 7⟩ = some 7 ∧
    (leafWorld.stamped alwaysStamp ⟨0, 0⟩).lookup ⟨7, 10, 7⟩ = none ∧
    (leafWorld.stamped alwaysStamp ⟨0, 0⟩).lookup ⟨7, 12, 7⟩ = none := by
  have hspot : spotToChunkPos ⟨7, 10, 7⟩ = ⟨0, 0⟩ ∧ 0 ≤ (10 : ℤ) ∧ (10 : ℤ) < CH_H - 40 := by decide
  have hfloor : ∀ coord, spotToChunkPos coord = ⟨0, 0⟩ → (leafWorld.isFloor coord = true ↔ coord = ⟨7, 10, 7⟩) :=
    fun _ _ => isFloor_leafWorld
  have hleaf : leafWorld.Generates alwaysStamp ⟨0, 0⟩ ∧
      (leafWorld.stamped alwaysStamp ⟨0, 0⟩).lookup ⟨7, 11, 7⟩ = some 7 :=
    stamped_of_oneFloor rfl hspot hfloor (by decide +kernel)
  exact ⟨hleaf.1, hleaf.2, (stamped_of_oneFloor rfl hspot hfloor (by decide +kernel)).2,
    (stamped_of_oneFloor rfl hspot hfloor (by decide +kernel)).2⟩

/-- The blocks around the leaf, when the chunk has been generated. -/
theorem blockat_leafWorld {e : Entropy} {r : ChunkSystem} (h : leafWorld.generateChunk alwaysStamp e ⟨0, 0⟩ = .ok r) :
    r.blockat ⟨7, 11, 7⟩ = 7 ∧ r.blockat ⟨7, 10, 7⟩ = 3 ∧ r.blockat ⟨7, 12, 7⟩ = 0 ∧ r.userdatamap = ∅ := by
  obtain ⟨-, hleaf, hgrass, hair⟩ := stamped_leafWorld
  have hnone : ∀ x, x ∉ leafWorld.userdatamap := fun x => Finmap.notMem_empty
  refine ⟨?_, ?_, ?_, (sameTerrain_generateChunk h).2⟩
  · rw [blockat_generateChunk h, if_neg (hnone _), hleaf]
    rfl
  · rw [blockat_generateChunk h, if_neg (hnone _), hgrass]
    rfl
  · rw [blockat_generateChunk h, if_neg (hnone _), hair]
    rfl

/-- Snow on the leaf. -/
def leafSnows : AutomataChange := ⟨7, ⟨7, 11, 7⟩, 50⟩

/-- Snow on the grass. -/
def grassSnows : AutomataChange := ⟨3, ⟨7, 10, 7⟩, 48⟩

/-- The chunk with the leaf is generated, and a change is made: a run that leaves the terrain. -/
theorem passes_leafWorld {r : ChunkSystem} (hr : leafWorld.generateChunk alwaysStamp .plain ⟨0, 0⟩ = .ok r)
    (change : AutomataChange) :
    Passes alwaysStamp ⟨leafWorld, []⟩ [(⟨leafWorld, []⟩, .generate .plain ⟨0, 0⟩), (⟨r, [⟨0, 0⟩]⟩, .drained change)]
        ⟨(applyChange (r, []) change).1, [⟨0, 0⟩]⟩ ∧
      leafWorld.SameTerrain r ∧ leafWorld.SameTerrain (applyChange (r, []) change).1 := by
  have hgenerate : turn alwaysStamp ⟨leafWorld, []⟩ (.generate .plain ⟨0, 0⟩) = .ok ⟨r, [⟨0, 0⟩]⟩ := by
    rw [turn, hr]
    rfl
  have hdrained : turn alwaysStamp ⟨r, [⟨0, 0⟩]⟩ (.drained change) = .ok ⟨(applyChange (r, []) change).1, [⟨0, 0⟩]⟩ :=
    rfl
  have hterrain := sameTerrain_turn hgenerate
  exact ⟨.turned hgenerate (.turned hdrained (.done _)), hterrain, hterrain.trans (sameTerrain_turn hdrained)⟩

/-- The leaf snows over, as a look at it in the rain queues; the chunk is generated again, and there is
no snow on the leaf. -/
theorem leaf_losesSnow : ∃ r s r', leafWorld.generateChunk alwaysStamp .plain ⟨0, 0⟩ = .ok r ∧
    automataAt r true 0 ⟨true, true, false⟩ ⟨7, 11, 7⟩ = some ⟨1, leafSnows, leafSnows⟩ ∧
    Passes alwaysStamp ⟨leafWorld, []⟩
      [(⟨leafWorld, []⟩, .generate .plain ⟨0, 0⟩), (⟨r, [⟨0, 0⟩]⟩, .drained leafSnows)] s ∧
    ⟨0, 0⟩ ∈ s.generated ∧ s.cs.generateChunk alwaysStamp .plain ⟨0, 0⟩ = .ok r' ∧
    s.cs.blockat ⟨7, 11, 7⟩ = 50 ∧ r'.blockat ⟨7, 11, 7⟩ = 7 := by
  obtain ⟨hgenerates, hleaf, -, -⟩ := stamped_leafWorld
  obtain ⟨r, hr⟩ := hgenerates
  obtain ⟨hseven, -, hair, hudm⟩ := blockat_leafWorld hr
  have hunchanged : ∀ x, x ∉ r.userdatamap := fun x => hudm ▸ Finmap.notMem_empty
  obtain ⟨hpasses, -, hterrain⟩ := passes_leafWorld hr leafSnows
  obtain ⟨r', hr', -⟩ := stamped_leafWorld.1.generateChunk hterrain .plain
  refine ⟨r, _, r', hr, ?_, hpasses, List.mem_singleton.mpr rfl, hr', ?_, ?_⟩
  · have habove : (⟨7, 11, 7⟩ : IVec3) + ⟨0, 1, 0⟩ = ⟨7, 12, 7⟩ := rfl
    rw [automataAt, habove, hseven, hair]
    rfl
  · have htakes : TakesEffect r leafSnows := ⟨by rw [leafSnows, hseven]; rfl, hunchanged _⟩
    rw [blockat_applyChange, if_pos ⟨rfl, htakes⟩]
    rfl
  · rw [blockat_generateChunk hr', userdatamap_applyChange, if_neg (hunchanged _), stamped_congr hterrain, hleaf]
    rfl

/-- The grass snows over, and the snow is there however often the chunk is generated again. -/
theorem grass_keepsSnow : ∃ r s, leafWorld.generateChunk alwaysStamp .plain ⟨0, 0⟩ = .ok r ∧
    Passes alwaysStamp ⟨leafWorld, []⟩
      [(⟨leafWorld, []⟩, .generate .plain ⟨0, 0⟩), (⟨r, [⟨0, 0⟩]⟩, .drained grassSnows)] s ∧
    s.cs.blockat ⟨7, 10, 7⟩ = 48 ∧ s.Preserved alwaysStamp := by
  obtain ⟨hgenerates, -, hgrass, -⟩ := stamped_leafWorld
  obtain ⟨r, hr⟩ := hgenerates
  obtain ⟨-, hthree, -, hudm⟩ := blockat_leafWorld hr
  have hunchanged : ∀ x, x ∉ r.userdatamap := fun x => hudm ▸ Finmap.notMem_empty
  obtain ⟨hpasses, hterrain, -⟩ := passes_leafWorld hr grassSnows
  refine ⟨r, _, hr, hpasses, ?_, ((reenter_iff alwaysStamp leafWorld hpasses).mpr ?_).2⟩
  · have htakes : TakesEffect r grassSnows := ⟨by rw [grassSnows, hthree]; rfl, hunchanged _⟩
    rw [blockat_applyChange, if_pos ⟨rfl, htakes⟩]
    rfl
  · rw [List.forall_mem_cons, List.forall_mem_singleton]
    constructor
    · intro c hc
      cases hc
    · intro _ c hc v hv
      rw [List.mem_singleton.mp hc, stamped_congr hterrain] at hv
      rw [grassSnows, hgrass] at hv
      cases hv

end Explored

end Distgard
