import Distgard.Game
import Distgard.Lib.Flood

/-!
# Taking away all connected blocks

`delete_block_recursively` takes away a block and all of its kind that are connected to it. It
works on the world itself: a cell that has been set to air is its own note that it was visited.

## What is proved

* `deleteRound_flood` — the loop goes round together with a flood over the world as it was.
* `deleteBlockRecursively_spec` — where finitely many cells hold the block, the loop ends; the
  cells connected to the first one are air then, all others are unchanged, and the set has the
  chunks of the cells that changed.
-/

namespace Distgard.ChunkSystem

open Lib

/-- The neighbors of a cell, in the order in which they are looked at. -/
def neighborsOf (c : IVec3) : List IVec3 := getNeighbors.map (· + c)

/-- A cell is connected to another through neighbors that hold the block; the first one may hold
any. -/
def Connected (cs : ChunkSystem) (id : UInt32) (start c : IVec3) : Prop :=
  Flood.Flooded neighborsOf (fun c => cs.blockat c = id) start c

/-- Take away the block at a cell with all that are connected to it, and note the chunks. -/
def DeleteBlockRecursively (id : UInt32) (start : IVec3) (set : HashSet IVec2) (cs cs' : ChunkSystem)
    (set' : HashSet IVec2) : Prop :=
  ∃ k, Loop.Ends (deleteRound id) k ([start], cs, set) ([], cs', set')

/-- The state of the loop is that of a flood: the cells filled are air and their chunks noted, and
every other cell is as it was. -/
structure Fills (id : UInt32) (start : IVec3) (cs : ChunkSystem) (set : HashSet IVec2) (s : List IVec3 × Finset IVec3)
    (t : List IVec3 × ChunkSystem × HashSet IVec2) : Prop where
  /-- The stacks are the same. -/
  stack : t.1 = s.1
  /-- The world is the old one, with the filled cells set to air by the user. -/
  world : ∃ l : List IVec3, (∀ c, c ∈ l ↔ c ∈ s.2) ∧ t.2.1 = l.foldr (fun c cs => cs.setBlock c 0 true) cs
  /-- The chunks of the filled cells are noted. -/
  chunks : ∀ key, key ∈ t.2.2 ↔ key ∈ set ∨ ∃ c ∈ s.2, spotToChunkPos c = key
  /-- The cells on the stack were no air. -/
  solid : ∀ c ∈ s.1, cs.blockat c ≠ 0

/-- Cells set to air by the user are air, and the others are as they were. -/
theorem blockat_foldr_setBlock (cs : ChunkSystem) (l : List IVec3) (c : IVec3) :
    (l.foldr (fun c cs => cs.setBlock c 0 true) cs).blockat c = if c ∈ l then 0 else cs.blockat c := by
  induction l with
  | nil => simp
  | cons d l ih =>
    rw [List.foldr_cons, blockat_setBlock_eq, Function.update_apply, ih]
    by_cases hc : c = d <;> simp [hc]

variable {id : UInt32} {start : IVec3} {cs : ChunkSystem} {set : HashSet IVec2}

theorem Fills.blockat {s : List IVec3 × Finset IVec3} {t : List IVec3 × ChunkSystem × HashSet IVec2}
    (h : Fills id start cs set s t) (c : IVec3) : t.2.1.blockat c = if c ∈ s.2 then 0 else cs.blockat c := by
  obtain ⟨l, hl, hworld⟩ := h.world
  rw [hworld, blockat_foldr_setBlock]
  simp only [hl]

/-- The neighbors that are pushed hold the block and are not filled. -/
theorem push_neighbors (hid : id ≠ 0) {filled : Finset IVec3} {cs₁ : ChunkSystem}
    (hworld : ∀ c, cs₁.blockat c = if c ∈ filled then 0 else cs.blockat c) (current : IVec3) (stack : List IVec3) :
    getNeighbors.foldl (fun stack neighbor =>
        if cs₁.blockat (neighbor + current) = id then (neighbor + current) :: stack else stack) stack =
      Flood.push (fun c => cs.blockat c = id) filled (neighborsOf current) stack := by
  have hholds : ∀ c, cs₁.blockat c = id ↔ cs.blockat c = id ∧ c ∉ filled := by
    intro c
    rw [hworld]
    split
    · next hc => simp [hc, hid.symm]
    · next hc => simp [hc]
  rw [Flood.push, neighborsOf, List.foldl_map]
  simp only [hholds, decide_eq_true_eq]

/-- **A round is a round of the flood.** -/
theorem deleteRound_flood (hid : id ≠ 0) {s s' : List IVec3 × Finset IVec3}
    {t : List IVec3 × ChunkSystem × HashSet IVec2} (h : Fills id start cs set s t)
    (hs : Flood.round neighborsOf (fun c => cs.blockat c = id) s = some s') :
    ∃ t', deleteRound id t = some t' ∧ Fills id start cs set s' t' := by
  obtain ⟨stack, filled⟩ := s
  obtain ⟨stack', cs₁, set₁⟩ := t
  have hblockat := h.blockat
  obtain ⟨hstack, ⟨l, hl, hworld⟩, hchunks, hsolid⟩ := h
  simp only at hstack hworld hblockat hl
  subst hstack
  cases stack' with
  | nil => cases hs
  | cons current stack =>
    obtain ⟨hcurrent, hrest⟩ := List.forall_mem_cons.mp hsolid
    rw [Flood.round] at hs
    split at hs
    · next hfilled =>
      cases hs
      refine ⟨(stack, cs₁, set₁), ?_, rfl, ⟨l, hl, hworld⟩, hchunks, hrest⟩
      rw [deleteRound, if_neg]
      rw [hblockat, if_pos hfilled]
      exact not_not_intro rfl
    · next hfilled =>
      cases hs
      have hset : ∀ c, (cs₁.setBlock current 0 true).blockat c =
          if c ∈ insert current filled then 0 else cs.blockat c := by
        intro c
        rw [blockat_setBlock_eq, Function.update_apply, hblockat]
        by_cases hc : c = current <;> simp [hc]
      have hround : deleteRound id (current :: stack, cs₁, set₁) =
          some (Flood.push (fun c => cs.blockat c = id) (insert current filled) (neighborsOf current) stack,
            cs₁.setBlock current 0 true, set₁.insert (spotToChunkPos current)) := by
        rw [← push_neighbors hid hset, deleteRound, if_pos]
        rw [hblockat, if_neg hfilled]
        exact hcurrent
      refine ⟨_, hround, rfl, ⟨current :: l, ?_, ?_⟩, ?_, ?_⟩
      · intro c
        rw [List.mem_cons, hl, Finset.mem_insert]
      · rw [List.foldr_cons, ← hworld]
      · intro key
        rw [List.mem_insert_iff, hchunks]
        simp only [Finset.mem_insert, exists_eq_or_imp]
        tauto
      · intro c hc
        rcases Flood.mem_push.mp hc with hc | ⟨-, hc, -⟩
        · exact hrest c hc
        · rw [of_decide_eq_true hc]
          exact hid

/-- **Flood fill**: from a cell that is no air, in a world where finitely many cells hold the
block, the loop ends. The cell and all connected to it are air then, every other cell is
unchanged, and the chunks of the cells that changed are added to the set, and no others. They are the
chunks that the source adds if the coordinates are below `2 ^ 24`. -/
theorem deleteBlockRecursively_spec (cs : ChunkSystem) (id : UInt32) (start : IVec3) (set : HashSet IVec2)
    (hid : id ≠ 0) (hfin : {c | cs.blockat c = id}.Finite) (hstart : cs.blockat start ≠ 0) :
    ∃ cs' set', DeleteBlockRecursively id start set cs cs' set' ∧
      (∀ cs'' set'', DeleteBlockRecursively id start set cs cs'' set'' → cs'' = cs' ∧ set'' = set') ∧
      (∀ c, cs.Connected id start c → cs'.blockat c = 0) ∧
      (∀ c, ¬ cs.Connected id start c → cs'.blockat c = cs.blockat c) ∧
      ∀ key, key ∈ set' ↔ key ∈ set ∨ ∃ c, cs'.blockat c ≠ cs.blockat c ∧ spotToChunkPos c = key := by
  obtain ⟨k, filled, hflood, hfilled⟩ := Flood.flood_ends neighborsOf (fun c => cs.blockat c = id)
    (by simpa using hfin) start
  have hfills : Fills id start cs set ([start], ∅) ([start], cs, set) := by
    refine ⟨rfl, ⟨[], by simp, rfl⟩, by simp, ?_⟩
    intro c hc
    rw [List.mem_singleton.mp hc]
    exact hstart
  have hnone : ∀ s t, Fills id start cs set s t →
      Flood.round neighborsOf (fun c => cs.blockat c = id) s = none → deleteRound id t = none := by
    rintro ⟨stack, filled⟩ ⟨stack', cs₁, set₁⟩ h hs
    have hstack := h.stack
    cases stack with
    | nil =>
      rw [show stack' = [] from hstack]
      rfl
    | cons v stack =>
      rw [Flood.round] at hs
      split at hs <;> cases hs
  obtain ⟨⟨stack', cs', set'⟩, hends, hfills'⟩ := hflood.rel hnone (fun _ _ _ h hs => deleteRound_flood hid h hs) hfills
  have hstack : stack' = [] := hfills'.stack
  subst hstack
  have hblockat : ∀ c, cs'.blockat c = if c ∈ filled then 0 else cs.blockat c := hfills'.blockat
  refine ⟨cs', set', ⟨k, hends⟩, ?_, ?_, ?_, ?_⟩
  · rintro cs'' set'' ⟨k', hends'⟩
    cases (hends'.unique hends).2
    exact ⟨rfl, rfl⟩
  · intro c hc
    rw [hblockat, if_pos ((hfilled c).mpr hc)]
  · intro c hc
    rw [hblockat, if_neg fun h => hc ((hfilled c).mp h)]
  · intro key
    rw [hfills'.chunks]
    apply or_congr_right
    apply exists_congr
    intro c
    apply and_congr_left
    intro _
    rw [hblockat]
    -- a cell that is reached was no air before
    constructor
    · intro hc
      rw [if_pos hc]
      rcases ((hfilled c).mp hc).eq_or_holds with rfl | hholds
      · exact hstart.symm
      · rw [of_decide_eq_true hholds]
        exact hid.symm
    · intro hne
      by_contra hc
      rw [if_neg hc] at hne
      exact hne rfl

/-- A cactus of two blocks, in a world of air. -/
def cactus : ChunkSystem := (barren.setBlock ⟨0, 0, 0⟩ 16 true).setBlock ⟨0, 1, 0⟩ 16 true

/-- The cactus is felled from below. -/
theorem deleteBlockRecursively_cactus : ∃ cs' set', DeleteBlockRecursively 16 ⟨0, 0, 0⟩ [] cactus cs' set' ∧
    cs'.blockat ⟨0, 0, 0⟩ = 0 ∧ cs'.blockat ⟨0, 1, 0⟩ = 0 := by
  have hblocks : ∀ c, cactus.blockat c = if c = ⟨0, 1, 0⟩ then 16 else if c = ⟨0, 0, 0⟩ then 16 else 0 := by
    intro c
    rw [cactus, blockat_setBlock_eq, Function.update_apply, blockat_setBlock_eq, Function.update_apply]
    rfl
  have hfin : {c | cactus.blockat c = 16}.Finite := by
    apply Set.Finite.subset (Set.toFinite {⟨0, 1, 0⟩, ⟨0, 0, 0⟩})
    intro c hc
    rw [Set.mem_ofPred_eq, hblocks] at hc
    split at hc
    · next h => exact .inl h
    · split at hc
      · next h => exact .inr h
      · exact absurd hc (by decide)
  have hstart : cactus.blockat ⟨0, 0, 0⟩ ≠ 0 := by
    rw [hblocks]
    decide
  obtain ⟨cs', set', hdelete, -, hair, -⟩ :=
    deleteBlockRecursively_spec cactus 16 ⟨0, 0, 0⟩ [] (by decide) hfin hstart
  refine ⟨cs', set', hdelete, hair _ .start, hair _ (.step .start ?_ ?_)⟩
  · decide
  · rw [hblocks]
    decide

end Distgard.ChunkSystem
