import Distgard.ChunkSystem
import Mathlib.Data.Finset.Card

/-!
# Growth and flowing water

A thread looks at the cells around the player and queues sets of changes
(`doAutomataPass`): grass and leaves that snow over, bamboo that grows, and water that
falls, one cell at a time. A set of one change lists it twice; a set that moves water
lists the cell the water leaves and the cell it comes to. The other end of the queue
(`drainAutomata`) applies each change by itself, if the cell still holds the identifier
the change expects.

Falling water carries a parity bit, so that it moves once in a frame. The bit is part of
what the change expects, but not of what it is compared with.

## What is proved

* `blockat_applySet` — what draining a set does to the blocks.
* `applySet_keeps_iff` — a set is applied as a whole and keeps the number of water cells
  exactly when both of its changes take effect or neither does (`Balanced`);
  `drain_allOrNothing_iff` says it of every interleaving of scans, edits and drains.
* `drain_odd_duplicates` — a set queued in an odd frame breaks this: the water stays, and
  comes to the cell below as well.
-/

namespace Distgard

open Lib ChunkSystem

/-- A change to one cell, made only if the cell holds what is expected. -/
structure AutomataChange where
  /-- The block expected in the cell. -/
  expectedhere : UInt32
  /-- The cell. -/
  spot : IVec3
  /-- The block to set. -/
  changeto : UInt32
  deriving DecidableEq, Repr

/-- Changes that belong together. -/
structure ACSet where
  /-- How many there are. -/
  count : ℕ
  /-- The changes; a single change is listed twice. -/
  changes : AutomataChange × AutomataChange
  deriving DecidableEq, Repr

namespace Automata

/-- The parity bit of moving water. -/
def ODDBIT : UInt32 := 0x80000000

/-- What the generator draws while a cell is looked at. -/
structure Dice where
  /-- The cell is looked at in this pass. -/
  looked : Bool
  /-- One chance in a hundred. -/
  one100 : Bool
  /-- One chance in ten. -/
  one10 : Bool

/-- What looking at a cell queues. -/
def automataAt (cs : ChunkSystem) (raining : Bool) (oddFrame : UInt32) (dice : Dice) (spot : IVec3) :
    Option ACSet :=
  if dice.looked then
    let combined := cs.blockat spot
    let block := combined &&& Blocks.blockIdBits
    if block = 3 then
      if raining ∧ dice.one100 then some ⟨1, ⟨block, spot, 48⟩, ⟨block, spot, 48⟩⟩ else none
    else if block = 2 then
      if combined = 2 ||| ODDBIT * oddFrame then
        let belowspot := spot + ⟨0, -1, 0⟩
        if cs.blockat belowspot &&& Blocks.blockIdBits = 0 then
          some ⟨2, ⟨2 ||| ODDBIT * oddFrame, spot, 0⟩, ⟨0, belowspot, 2 ||| ODDBIT * (1 - oddFrame)⟩⟩
        else none
      else none
    else if block = 7 then
      if raining ∧ cs.blockat (spot + ⟨0, 1, 0⟩) &&& Blocks.blockIdBits = 0 ∧ dice.one100 then
        some ⟨1, ⟨7, spot, 50⟩, ⟨7, spot, 50⟩⟩
      else none
    else if block = 22 then
      let abovespot := spot + ⟨0, 1, 0⟩
      if cs.blockat abovespot &&& Blocks.blockIdBits = 0 ∧ dice.one10 then
        some ⟨1, ⟨0, abovespot, 22⟩, ⟨0, abovespot, 22⟩⟩
      else none
    else none
  else none

/-- The chunks around the player's. -/
def chunksAround (pcpos : IVec2) : List IVec2 :=
  (range0 8).flatMap fun i => (range0 8).map fun j => pcpos + ⟨i - 4, j - 4⟩

/-- One pass of the thread: the registered chunks around the player, from the top down. -/
def doAutomataPass (cs : ChunkSystem) (pcpos : IVec2) (raining : Bool) (oddFrame : UInt32) (dice : IVec3 → Dice) :
    List ACSet :=
  (chunksAround pcpos).flatMap fun poshere =>
    match cs.takencare.lookup poshere with
    | some c => (columnCells c.pos (range0 CH_H).reverse).filterMap fun spot =>
        automataAt cs raining oddFrame (dice spot) spot
    | none => []

/-- A set that looking at some cell, at some time, queues. -/
def Produced (set : ACSet) : Prop :=
  ∃ cs raining oddFrame dice spot, (oddFrame = 0 ∨ oddFrame = 1) ∧ automataAt cs raining oddFrame dice spot = some set

/-! ### Draining -/

/-- Apply a change, if the cell holds what it expects, and note its chunk. -/
def applyChange (s : ChunkSystem × HashSet IVec2) (c : AutomataChange) : ChunkSystem × HashSet IVec2 :=
  if s.1.blockat c.spot &&& Blocks.blockIdBits = c.expectedhere then
    (s.1.setBlockNoSound c.spot c.changeto false, s.2.insert (spotToChunkPos c.spot))
  else s

/-- Apply the changes of a set. -/
def applySet (s : ChunkSystem × HashSet IVec2) (set : ACSet) : ChunkSystem × HashSet IVec2 :=
  applyChange (applyChange s set.changes.1) set.changes.2

/-- Drain the queue, then ask for the chunks that were changed to be rebuilt. -/
def drainAutomata (e : Entropy) (cs : ChunkSystem) (queue : List ACSet) : ChunkSystem :=
  let s := queue.foldl applySet (cs, [])
  (e.chunks.iter s.2).foldl (fun cs imp => cs.queueRerenderWithKey imp true false) s.1

/-- The change would be seen: the cell holds what it expects, and the user has not set it. -/
def TakesEffect (cs : ChunkSystem) (c : AutomataChange) : Prop :=
  cs.blockat c.spot &&& Blocks.blockIdBits = c.expectedhere ∧ c.spot ∉ cs.userdatamap

instance (cs : ChunkSystem) (c : AutomataChange) : Decidable (TakesEffect cs c) :=
  inferInstanceAs (Decidable (_ ∧ _))

theorem userdatamap_applyChange (s : ChunkSystem × HashSet IVec2) (c : AutomataChange) :
    (applyChange s c).1.userdatamap = s.1.userdatamap := by
  unfold applyChange setBlockNoSound
  split <;> rfl

/-- A change that takes effect sets its cell, and nothing else changes. -/
theorem blockat_applyChange (s : ChunkSystem × HashSet IVec2) (c : AutomataChange) (x : IVec3) :
    (applyChange s c).1.blockat x = if x = c.spot ∧ TakesEffect s.1 c then c.changeto else s.1.blockat x := by
  unfold applyChange TakesEffect
  split
  · next h => simp only [blockat_setBlockNoSound_nonuser, h, true_and]
  · next h => simp only [h, false_and, and_false, if_false]

/-- The set that moves water from a cell to the one below, in a frame of the given parity. -/
def waterFalls (spot : IVec3) (oddFrame : UInt32) : ACSet :=
  ⟨2, ⟨2 ||| ODDBIT * oddFrame, spot, 0⟩, ⟨0, spot + ⟨0, -1, 0⟩, 2 ||| ODDBIT * (1 - oddFrame)⟩⟩

/-- The cell below a cell is another cell. -/
theorem below_ne (spot : IVec3) : spot + ⟨0, -1, 0⟩ ≠ spot := CubeSide.add_offset_ne spot .BOTTOM

/-- What a queued set looks like: one change listed twice, of a cell that has nothing to do
with water, or the move of water to the cell below. -/
inductive Shape : ACSet → Prop
  /-- Grass or leaves snow over, or bamboo grows. -/
  | single (c : AutomataChange) (n : ℕ) (h : c.expectedhere ≠ 2) (h' : c.changeto &&& Blocks.blockIdBits ≠ 2) :
      Shape ⟨n, c, c⟩
  /-- Water falls, in a frame of the given parity. -/
  | water (spot : IVec3) (oddFrame : UInt32) (h : oddFrame = 0 ∨ oddFrame = 1) : Shape (waterFalls spot oddFrame)

theorem Produced.shape {set : ACSet} (h : Produced set) : Shape set := by
  obtain ⟨cs, raining, oddFrame, dice, spot, hodd, h⟩ := h
  unfold automataAt at h
  split at h
  · simp only at h
    split at h
    · next hb =>
      split at h
      · cases h
        rw [hb]
        exact .single _ _ (show (3 : UInt32) ≠ 2 by decide) (show (48 : UInt32) &&& Blocks.blockIdBits ≠ 2 by decide)
      · cases h
    · split at h
      · split at h
        · split at h
          · cases h
            exact .water spot oddFrame hodd
          · cases h
        · cases h
      · split at h
        · split at h
          · cases h
            exact .single _ _ (show (7 : UInt32) ≠ 2 by decide)
              (show (50 : UInt32) &&& Blocks.blockIdBits ≠ 2 by decide)
          · cases h
        · split at h
          · split at h
            · cases h
              exact .single _ _ (show (0 : UInt32) ≠ 2 by decide)
                (show (22 : UInt32) &&& Blocks.blockIdBits ≠ 2 by decide)
            · cases h
          · cases h
  · cases h

/-- Everything a pass queues is produced by looking at a cell. -/
theorem produced_of_mem_doAutomataPass {cs : ChunkSystem} {pcpos : IVec2} {raining : Bool} {oddFrame : UInt32}
    {dice : IVec3 → Dice} {set : ACSet} (hodd : oddFrame = 0 ∨ oddFrame = 1)
    (h : set ∈ doAutomataPass cs pcpos raining oddFrame dice) : Produced set := by
  simp only [doAutomataPass, List.mem_flatMap] at h
  obtain ⟨poshere, -, h⟩ := h
  split at h
  · obtain ⟨spot, -, h⟩ := List.mem_filterMap.mp h
    exact ⟨cs, raining, oddFrame, dice spot, spot, hodd, h⟩
  · cases h

/-- **Draining a set**: each of its changes that takes effect sets its cell. -/
theorem blockat_applySet {set : ACSet} (h : Shape set) (s : ChunkSystem × HashSet IVec2) (x : IVec3) :
    (applySet s set).1.blockat x =
      if x = set.changes.2.spot ∧ TakesEffect s.1 set.changes.2 then set.changes.2.changeto
      else if x = set.changes.1.spot ∧ TakesEffect s.1 set.changes.1 then set.changes.1.changeto
      else s.1.blockat x := by
  cases h with
  | single c n h h' =>
    simp only [applySet, blockat_applyChange]
    by_cases hx : x = c.spot ∧ TakesEffect s.1 c
    · simp [hx]
    · have : ¬ (x = c.spot ∧ TakesEffect (applyChange s c).1 c) := by
        rintro ⟨rfl, ht⟩
        refine hx ⟨rfl, ?_, by simpa [userdatamap_applyChange] using ht.2⟩
        have hb := ht.1
        rw [blockat_applyChange, if_neg hx] at hb
        exact hb
      simp [hx, this]
  | water spot oddFrame h =>
    have hsecond : TakesEffect (applyChange s (waterFalls spot oddFrame).changes.1).1 (waterFalls spot oddFrame).changes.2 ↔
        TakesEffect s.1 (waterFalls spot oddFrame).changes.2 := by
      simp only [waterFalls, TakesEffect, userdatamap_applyChange, blockat_applyChange, below_ne, false_and, if_false]
    simp only [applySet]
    rw [blockat_applyChange, blockat_applyChange]
    simp only [hsecond]

/-! ### All or nothing -/

/-- After the drain either every cell of the set holds what the set puts there, or every
cell of the set is as it was. -/
def AllOrNothing (cs : ChunkSystem) (set : ACSet) : Prop :=
  ((applySet (cs, []) set).1.blockat set.changes.1.spot = set.changes.1.changeto ∧
    (applySet (cs, []) set).1.blockat set.changes.2.spot = set.changes.2.changeto) ∨
  ((applySet (cs, []) set).1.blockat set.changes.1.spot = cs.blockat set.changes.1.spot ∧
    (applySet (cs, []) set).1.blockat set.changes.2.spot = cs.blockat set.changes.2.spot)

/-- The cells of a region that hold water. -/
def waterCells (cs : ChunkSystem) (region : Finset IVec3) : Finset IVec3 :=
  region.filter fun x => cs.blockat x &&& Blocks.blockIdBits = 2

/-- The drain changes the number of water cells nowhere. -/
def KeepsWater (cs : ChunkSystem) (set : ACSet) : Prop :=
  ∀ region : Finset IVec3, set.changes.1.spot ∈ region → set.changes.2.spot ∈ region →
    (waterCells (applySet (cs, []) set).1 region).card = (waterCells cs region).card

/-- Both changes of the set take effect, or neither does. -/
def Balanced (cs : ChunkSystem) (set : ACSet) : Prop :=
  TakesEffect cs set.changes.1 ↔ TakesEffect cs set.changes.2

/-- In a frame of either parity the water that arrives is water. -/
theorem id_arriving {oddFrame : UInt32} (h : oddFrame = 0 ∨ oddFrame = 1) :
    (2 ||| ODDBIT * (1 - oddFrame)) &&& Blocks.blockIdBits = 2 := by
  rcases h with rfl | rfl <;> decide

/-- An identifier that equals the word a move expects is the identifier of water. -/
theorem id_leaving {block oddFrame : UInt32} (h : oddFrame = 0 ∨ oddFrame = 1)
    (hb : block &&& Blocks.blockIdBits = 2 ||| ODDBIT * oddFrame) : block &&& Blocks.blockIdBits = 2 := by
  have hidem : block &&& Blocks.blockIdBits = (block &&& Blocks.blockIdBits) &&& Blocks.blockIdBits := by
    rw [UInt32.and_assoc, UInt32.and_self]
  rw [hidem, hb]
  rcases h with rfl | rfl <;> decide

/-- The number of water cells depends on the blocks of the region alone. -/
theorem waterCells_congr {cs cs' : ChunkSystem} {region : Finset IVec3}
    (h : ∀ x ∈ region, cs'.blockat x = cs.blockat x) : waterCells cs' region = waterCells cs region :=
  Finset.filter_congr fun x hx => by rw [h x hx]

/-- A set of one change is applied as a whole, and does not touch water. -/
theorem single_keeps {cs : ChunkSystem} {c : AutomataChange} {n : ℕ} (h : c.expectedhere ≠ 2)
    (h' : c.changeto &&& Blocks.blockIdBits ≠ 2) :
    AllOrNothing cs ⟨n, c, c⟩ ∧ KeepsWater cs ⟨n, c, c⟩ := by
  have hb : ∀ x, (applySet (cs, []) ⟨n, c, c⟩).1.blockat x =
      if x = c.spot ∧ TakesEffect cs c then c.changeto else cs.blockat x := by
    intro x
    rw [blockat_applySet (.single c n h h')]
    split <;> rfl
  by_cases ht : TakesEffect cs c
  · refine ⟨.inl ?_, fun region _ _ => congrArg Finset.card (Finset.filter_congr fun x _ => ?_)⟩
    · simp only [hb, ht, and_self, if_true]
    · rw [hb]
      split
      · next hx =>
        -- neither the block that goes nor the one that comes is water
        rw [hx.1, ht.1]
        exact ⟨fun e => absurd e h', fun e => absurd e h⟩
      · rfl
  · refine ⟨.inr ?_, fun region _ _ => congrArg Finset.card (waterCells_congr fun x _ => ?_)⟩
    · simp only [hb, ht, and_false, if_false, and_self]
    · rw [hb, if_neg fun hx => ht hx.2]

section

variable {cs : ChunkSystem} {spot : IVec3} {oddFrame : UInt32} (hodd : oddFrame = 0 ∨ oddFrame = 1)

include hodd

/-- Where there is water after a move is drained: gone from the first cell if the first
change takes effect, and in the second if the second does. -/
theorem waterCells_waterFalls {region : Finset IVec3} (hbelow : spot + ⟨0, -1, 0⟩ ∈ region) :
    waterCells (applySet (cs, []) (waterFalls spot oddFrame)).1 region =
      let left := if TakesEffect cs (waterFalls spot oddFrame).changes.1 then (waterCells cs region).erase spot
        else waterCells cs region
      if TakesEffect cs (waterFalls spot oddFrame).changes.2 then insert (spot + ⟨0, -1, 0⟩) left else left := by
  have hmem : ∀ x, x ∈ waterCells (applySet (cs, []) (waterFalls spot oddFrame)).1 region ↔
      x ∈ region ∧ (if x = spot + ⟨0, -1, 0⟩ ∧ TakesEffect cs (waterFalls spot oddFrame).changes.2 then
          2 ||| ODDBIT * (1 - oddFrame)
        else if x = spot ∧ TakesEffect cs (waterFalls spot oddFrame).changes.1 then 0
        else cs.blockat x) &&& Blocks.blockIdBits = 2 := fun x => by
    rw [waterCells, Finset.mem_filter, blockat_applySet (.water spot oddFrame hodd)]
    rfl
  ext x
  rw [hmem]
  by_cases h2 : TakesEffect cs (waterFalls spot oddFrame).changes.2 <;>
    by_cases h1 : TakesEffect cs (waterFalls spot oddFrame).changes.1 <;>
    simp only [h1, h2, and_true, and_false, if_true, if_false, Finset.mem_insert, Finset.mem_erase]
  · by_cases hb : x = spot + ⟨0, -1, 0⟩
    · simp only [hb, if_true, id_arriving hodd, hbelow, and_self, true_or]
    · by_cases hs : x = spot <;> simp [hb, hs, (below_ne spot).symm, waterCells]
  · by_cases hb : x = spot + ⟨0, -1, 0⟩
    · simp only [hb, if_true, id_arriving hodd, hbelow, and_self, true_or]
    · simp only [hb, if_false, false_or, waterCells, Finset.mem_filter]
  · by_cases hs : x = spot <;> simp [hs, waterCells]
  · simp only [waterCells, Finset.mem_filter]

theorem mem_waterCells_of_takesEffect {region : Finset IVec3} (hspot : spot ∈ region)
    (h : TakesEffect cs (waterFalls spot oddFrame).changes.1) : spot ∈ waterCells cs region :=
  Finset.mem_filter.mpr ⟨hspot, id_leaving hodd h.1⟩

omit hodd in
theorem below_notMem_waterCells {region : Finset IVec3}
    (h : TakesEffect cs (waterFalls spot oddFrame).changes.2) : spot + ⟨0, -1, 0⟩ ∉ waterCells cs region := by
  intro hm
  have h0 := h.1
  have h2 := (Finset.mem_filter.mp hm).2
  simp only [waterFalls] at h0
  rw [h0] at h2
  exact absurd h2 (by decide)

/-- A move keeps the number of water cells exactly when both of its changes take effect
or neither does. -/
theorem keepsWater_waterFalls : KeepsWater cs (waterFalls spot oddFrame) ↔ Balanced cs (waterFalls spot oddFrame) := by
  have hcard : ∀ region : Finset IVec3, spot ∈ region → spot + ⟨0, -1, 0⟩ ∈ region →
      (waterCells (applySet (cs, []) (waterFalls spot oddFrame)).1 region).card +
          (if TakesEffect cs (waterFalls spot oddFrame).changes.1 then 1 else 0) =
        (waterCells cs region).card + if TakesEffect cs (waterFalls spot oddFrame).changes.2 then 1 else 0 := by
    intro region hspot hbelow
    rw [waterCells_waterFalls hodd hbelow]
    by_cases h1 : TakesEffect cs (waterFalls spot oddFrame).changes.1
    · have hm := mem_waterCells_of_takesEffect hodd hspot h1
      have hpos := Finset.card_pos.mpr ⟨spot, hm⟩
      have herase := Finset.card_erase_of_mem hm
      by_cases h2 : TakesEffect cs (waterFalls spot oddFrame).changes.2
      · have hnm : spot + ⟨0, -1, 0⟩ ∉ (waterCells cs region).erase spot :=
          fun h => below_notMem_waterCells h2 (Finset.mem_of_mem_erase h)
        simp only [h1, h2, if_true, Finset.card_insert_of_notMem hnm]
        omega
      · simp only [h1, h2, if_true, if_false]
        omega
    · by_cases h2 : TakesEffect cs (waterFalls spot oddFrame).changes.2
      · simp only [h1, h2, if_true, if_false, Finset.card_insert_of_notMem (below_notMem_waterCells h2)]
      · simp only [h1, h2, if_false]
  constructor
  · intro h
    have hregion := h {spot, spot + ⟨0, -1, 0⟩} (by simp [waterFalls]) (by simp [waterFalls])
    have := hcard {spot, spot + ⟨0, -1, 0⟩} (by simp) (by simp)
    rw [hregion] at this
    unfold Balanced
    split at this <;> split at this <;> first | omega | simp_all
  · intro h region hspot hbelow
    have := hcard region hspot hbelow
    unfold Balanced at h
    by_cases h1 : TakesEffect cs (waterFalls spot oddFrame).changes.1
    · simp only [h1, h.mp h1, if_true] at this
      omega
    · have h2 : ¬ TakesEffect cs (waterFalls spot oddFrame).changes.2 := fun h2 => h1 (h.mpr h2)
      simp only [h1, h2, if_false] at this
      omega

/-- A move of which both changes take effect, or neither, is applied as a whole. -/
theorem allOrNothing_waterFalls (h : Balanced cs (waterFalls spot oddFrame)) :
    AllOrNothing cs (waterFalls spot oddFrame) := by
  have hne : (waterFalls spot oddFrame).changes.1.spot ≠ (waterFalls spot oddFrame).changes.2.spot :=
    (below_ne spot).symm
  unfold AllOrNothing
  simp only [blockat_applySet (.water spot oddFrame hodd), hne, false_and, if_false, true_and]
  by_cases h1 : TakesEffect cs (waterFalls spot oddFrame).changes.1
  · simp only [h1, h.mp h1, if_true, and_self, true_or]
  · have h2 : ¬ TakesEffect cs (waterFalls spot oddFrame).changes.2 := fun h2 => h1 (h.mpr h2)
    simp only [h1, h2, hne.symm, if_false, and_self, or_true]

end

/-- **One set**: it is applied as a whole and keeps the number of water cells exactly when
both of its changes take effect, or neither does. -/
theorem applySet_keeps_iff {cs : ChunkSystem} {set : ACSet} (h : Shape set) :
    AllOrNothing cs set ∧ KeepsWater cs set ↔ Balanced cs set := by
  cases h with
  | single c n h h' => exact ⟨fun _ => Iff.rfl, fun _ => single_keeps h h'⟩
  | water spot oddFrame hodd =>
    exact ⟨fun h => (keepsWater_waterFalls hodd).mp h.2,
      fun h => ⟨allOrNothing_waterFalls hodd h, (keepsWater_waterFalls hodd).mpr h⟩⟩

/-- A set queued in an odd frame moves nothing when it is drained, in whatever world: the
word it expects is no identifier. If there is air below that the user has not set, the
water comes there all the same. -/
theorem drain_odd_duplicates (cs : ChunkSystem) {spot : IVec3}
    (hbelow : TakesEffect cs (waterFalls spot 1).changes.2) :
    (applySet (cs, []) (waterFalls spot 1)).1.blockat spot = cs.blockat spot ∧
      (applySet (cs, []) (waterFalls spot 1)).1.blockat (spot + ⟨0, -1, 0⟩) = 2 := by
  have hleft : ¬ TakesEffect cs (waterFalls spot 1).changes.1 := by
    intro h
    have hid : cs.blockat spot &&& Blocks.blockIdBits = 2 ||| ODDBIT * 1 := h.1
    have hwater := id_leaving (.inr rfl) hid
    rw [hid] at hwater
    exact absurd hwater (by decide)
  constructor
  · rw [blockat_applySet (.water spot 1 (.inr rfl)), if_neg fun h => below_ne spot h.1.symm, if_neg fun h => hleft h.2]
  · rw [blockat_applySet (.water spot 1 (.inr rfl)), if_pos ⟨rfl, hbelow⟩]
    rfl

/-! ### Runs -/

/-- What happens to the world and its queue. -/
inductive Turn where
  /-- A user sets a block. -/
  | edit (spot : IVec3) (block : UInt32)
  /-- A set is queued. -/
  | queued (set : ACSet)
  /-- The next set is drained. -/
  | drained
  deriving DecidableEq, Repr

/-- The world and its queue after a turn. -/
def turn (s : ChunkSystem × List ACSet) : Turn → ChunkSystem × List ACSet
  | .edit spot block => (s.1.setBlock spot block true, s.2)
  | .queued set => (s.1, s.2 ++ [set])
  | .drained =>
    match s.2 with
    | [] => s
    | set :: queue => ((applySet (s.1, []) set).1, queue)

/-- The sets drained in a run, each with the world in which its turn comes. -/
def drainedIn (s : ChunkSystem × List ACSet) : List Turn → List (ChunkSystem × ACSet)
  | [] => []
  | .drained :: turns => (s.2.head?.map fun set => (s.1, set)).toList ++ drainedIn (turn s .drained) turns
  | t :: turns => drainedIn (turn s t) turns

/-- Only sets that were queued before the run or in it are drained. -/
theorem mem_of_mem_drainedIn {s : ChunkSystem × List ACSet} {turns : List Turn} {d : ChunkSystem × ACSet}
    (h : d ∈ drainedIn s turns) : d.2 ∈ s.2 ∨ .queued d.2 ∈ turns := by
  induction turns generalizing s with
  | nil => cases h
  | cons t turns ih =>
    cases t with
    | edit spot block =>
      rcases ih h with h | h
      · exact .inl h
      · exact .inr (List.mem_cons_of_mem _ h)
    | queued set =>
      rcases ih h with h | h
      · rcases List.mem_append.mp h with h | h
        · exact .inl h
        · cases List.mem_singleton.mp h
          exact .inr (List.mem_cons_self ..)
      · exact .inr (List.mem_cons_of_mem _ h)
    | drained =>
      obtain ⟨cs, queue⟩ := s
      cases queue with
      | nil =>
        rcases ih h with h | h
        · exact .inl h
        · exact .inr (List.mem_cons_of_mem _ h)
      | cons set queue =>
        rcases List.mem_cons.mp h with rfl | h
        · exact .inl (List.mem_cons_self ..)
        · rcases ih h with h | h
          · exact .inl (List.mem_cons_of_mem _ h)
          · exact .inr (List.mem_cons_of_mem _ h)

theorem applyChange_fst (s : ChunkSystem × HashSet IVec2) (imp : HashSet IVec2) (c : AutomataChange) :
    (applyChange s c).1 = (applyChange (s.1, imp) c).1 := by
  unfold applyChange
  split <;> rfl

/-- The world after a set is drained does not depend on the chunks noted before. -/
theorem applySet_fst (s : ChunkSystem × HashSet IVec2) (imp : HashSet IVec2) (set : ACSet) :
    (applySet s set).1 = (applySet (s.1, imp) set).1 := by
  unfold applySet
  rw [applyChange_fst _ (applyChange (s.1, imp) set.changes.1).2, applyChange_fst s imp]

/-- Asking for rebuilds changes no block. -/
theorem blockat_drainAutomata (e : Entropy) (cs : ChunkSystem) (queue : List ACSet) (x : IVec3) :
    (drainAutomata e cs queue).blockat x = (queue.foldl applySet (cs, [])).1.blockat x := by
  rw [drainAutomata, foldl_queueRerenderWithKey]
  rfl

/-- **A whole drain**: when at the turn of each set both of its changes take effect, or
neither does, the number of water cells stays the same. -/
theorem card_waterCells_foldl {queue : List ACSet} {s : ChunkSystem × HashSet IVec2} {region : Finset IVec3}
    (hq : ∀ set ∈ queue, Shape set)
    (hregion : ∀ set ∈ queue, set.changes.1.spot ∈ region ∧ set.changes.2.spot ∈ region)
    (hb : ∀ d ∈ drainedIn (s.1, queue) (List.replicate queue.length .drained), Balanced d.1 d.2) :
    (waterCells (queue.foldl applySet s).1 region).card = (waterCells s.1 region).card := by
  induction queue generalizing s with
  | nil => rfl
  | cons set queue ih =>
    have hset : Balanced s.1 set := hb (s.1, set) (List.mem_cons_self ..)
    obtain ⟨h1, h2⟩ := hregion set (List.mem_cons_self ..)
    have hkeeps := ((applySet_keeps_iff (hq set (List.mem_cons_self ..))).mpr hset).2 region h1 h2
    rw [List.foldl_cons, ih (fun t ht => hq t (List.mem_cons_of_mem _ ht))
      (fun t ht => hregion t (List.mem_cons_of_mem _ ht)), applySet_fst s [], hkeeps]
    intro d hd
    rw [applySet_fst s []] at hd
    exact hb d (List.mem_cons_of_mem _ hd)

/-- **All or nothing.** In every run of edits, scans and drains, every set is applied as a
whole and keeps the number of water cells exactly when, at the turn of each set, both of its
changes take effect or neither does; and a drain of a queue of which that is true keeps the
number of water cells of every region that holds the cells of its sets. -/
theorem drain_allOrNothing_iff (cs : ChunkSystem) (queue : List ACSet) (turns : List Turn)
    (hqueue : ∀ set ∈ queue, Produced set) (hturns : ∀ set, .queued set ∈ turns → Produced set) :
    ((∀ d ∈ drainedIn (cs, queue) turns, AllOrNothing d.1 d.2 ∧ KeepsWater d.1 d.2) ↔
      ∀ d ∈ drainedIn (cs, queue) turns, Balanced d.1 d.2) ∧
    ((∀ d ∈ drainedIn (cs, queue) (List.replicate queue.length .drained), Balanced d.1 d.2) →
      ∀ (e : Entropy) (region : Finset IVec3),
        (∀ set ∈ queue, set.changes.1.spot ∈ region ∧ set.changes.2.spot ∈ region) →
        (waterCells (drainAutomata e cs queue) region).card = (waterCells cs region).card) := by
  have hshape : ∀ d ∈ drainedIn (cs, queue) turns, Shape d.2 := by
    intro d hd
    rcases mem_of_mem_drainedIn hd with h | h
    · exact (hqueue _ h).shape
    · exact (hturns _ h).shape
  refine ⟨forall_congr' fun d => forall_congr' fun hd => applySet_keeps_iff (hshape d hd), ?_⟩
  intro hb e region hregion
  rw [waterCells_congr fun x _ => blockat_drainAutomata e cs queue x]
  exact card_waterCells_foldl (fun set hset => (hqueue set hset).shape) hregion hb

/-- Water with an even parity in one cell, and nothing else. -/
def evenWater : ChunkSystem := barren.setBlock ⟨0, 5, 0⟩ 2 false

/-- Even water falls as a whole, with glass set two cells below it meanwhile. -/
theorem drain_allOrNothing_evenWater :
    AllOrNothing (evenWater.setBlock ⟨0, 3, 0⟩ 8 true) (waterFalls ⟨0, 5, 0⟩ 0) ∧
      KeepsWater (evenWater.setBlock ⟨0, 3, 0⟩ 8 true) (waterFalls ⟨0, 5, 0⟩ 0) := by
  have hrun : drainedIn (evenWater, [waterFalls ⟨0, 5, 0⟩ 0]) [.edit ⟨0, 3, 0⟩ 8, .drained] =
      [(evenWater.setBlock ⟨0, 3, 0⟩ 8 true, waterFalls ⟨0, 5, 0⟩ 0)] := rfl
  have hiff := (drain_allOrNothing_iff evenWater [waterFalls ⟨0, 5, 0⟩ 0] [.edit ⟨0, 3, 0⟩ 8, .drained]
    (fun set hset => by
      cases List.mem_singleton.mp hset
      exact ⟨evenWater, false, 0, ⟨true, false, false⟩, ⟨0, 5, 0⟩, .inl rfl, by decide⟩)
    (fun set hset => by simp at hset)).1
  rw [hrun, List.forall_mem_singleton, List.forall_mem_singleton] at hiff
  exact hiff.mpr (by unfold Balanced; decide)

/-- Water with an odd parity in one cell, and nothing else. -/
def oddWater : ChunkSystem := barren.setBlock ⟨0, 5, 0⟩ (2 ||| ODDBIT) false

/-- Odd water, looked at in an odd frame, queues its move, and the drain that comes next
applies half of it: two cells of water where there was one. -/
theorem oddWater_notAllOrNothing :
    automataAt oddWater false 1 ⟨true, false, false⟩ ⟨0, 5, 0⟩ = some (waterFalls ⟨0, 5, 0⟩ 1) ∧
      drainedIn (oddWater, [waterFalls ⟨0, 5, 0⟩ 1]) [.drained] = [(oddWater, waterFalls ⟨0, 5, 0⟩ 1)] ∧
      ¬ AllOrNothing oddWater (waterFalls ⟨0, 5, 0⟩ 1) ∧ ¬ KeepsWater oddWater (waterFalls ⟨0, 5, 0⟩ 1) := by
  refine ⟨by decide, rfl, by unfold AllOrNothing; decide, ?_⟩
  intro h
  have := h {⟨0, 5, 0⟩, ⟨0, 4, 0⟩} (by decide) (by decide)
  revert this
  decide

end Automata

end Distgard
