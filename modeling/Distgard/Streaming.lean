import Distgard.Lib.Partition
import Distgard.Registry
import Mathlib.Data.Int.Range

/-!
# Which chunks are kept

As the camera moves, slots are moved to the chunks around it. A pass looks for the chunks
of a square around the camera that no slot holds, nearest first, and moves one slot to
each: first the slots that were never rebuilt or that are far from the camera, then the
others, in the order of their numbers.

## The model

`attendNeededSpots` is one pass. It stops early when automata changes are queued (`busy`) or
a rebuild for the user or a light rebuild is asked for; the second component of its result
tells whether it came to its end. `userCpos` and `userCPos` are two names of the source for
the chunk of the camera, computed in two ways; nothing here assumes that they agree. No other
thread holds the lock of a slot during a pass.

## What is proved

* `Registry.Pass` — what a pass is to the registry: moves, with rebuilds in between. A pass
  of the code is one (`pass_attendNeededSpots`).
* `Registry.Pass.keeps`, `Registry.Pass.positions` — which slots stay, and where the others go.
* `attendNeededSpots_keeps_iff` — in every run, a pass keeps what is needed exactly when no
  slot with a needed position is among the first to be moved.
* `missing_le_slots` — up to a radius of `125` there are slots enough.
* `attendNeededSpots_evictsNeeded` — the chunk at a corner of the square counts as far.
-/

namespace Distgard

open Lib

namespace ChunkSystem

/-! ### A pass -/

/-- The chunks that the camera needs, row by row. -/
def neededSquare (radius : UInt8) (userCpos : IVec2) : List IVec2 :=
  (Int.range (-radius.toNat) radius.toNat).flatMap fun i =>
    (Int.range (-radius.toNat) radius.toNat).map fun k => ⟨userCpos.x + i, userCpos.y + k⟩

/-- The square of a distance. -/
def dist (a userCPos : IVec2) : ℤ := (a.x - userCPos.x) ^ 2 + (a.y - userCPos.y) ^ 2

/-- The needed chunks that no slot holds, the nearest first. -/
def neededspots (cs : ChunkSystem) (userCpos userCPos : IVec2) : List IVec2 :=
  ((neededSquare cs.radius userCpos).filter (· ∉ cs.takencare)).mergeSort fun a b =>
    decide (dist a userCPos ≤ dist b userCPos)

/-- The slot was never rebuilt, or is far from the camera. -/
def unusedOrDistant (radius : UInt8) (userCpos : IVec2) (chunk : ChunkFacade) : Bool :=
  if !chunk.used then true
  else decide (radius.toNat * 2 ≤ (chunk.pos.x - userCpos.x).natAbs + (chunk.pos.y - userCpos.y).natAbs)

/-- The slots in the order in which a pass moves them. -/
def sortedChunkFacades (cs : ChunkSystem) (userCpos : IVec2) : List ChunkFacade :=
  let (unusedOrDistant, usedAndClose) := cs.chunks.partition (unusedOrDistant cs.radius userCpos)
  unusedOrDistant ++ usedAndClose

/-- Serve a request left by terrain generated next to a slot, if there is one. -/
def serveGenRequest (env : Externals) (e : Entropy) (cs : ChunkSystem) : Except Panic ChunkSystem :=
  match cs.genRebuildRequests with
  | i :: requests => rebuildIndex env e { cs with genRebuildRequests := requests } i true false
  | [] => .ok cs

/-- The loop of a pass, from the needed chunk numbered `index` on. -/
def attendSpots (env : Externals) (es : ℕ → Entropy) (busy : ℕ → Bool) (sorted : List ChunkFacade) :
    ℕ → List IVec2 → ChunkSystem → Except Panic (ChunkSystem × Bool)
  | _, [], cs => .ok (cs, true)
  | index, ns :: rest, cs =>
    if busy index then .ok (cs, false)
    else
      match cs.userRebuildRequests with
      | i :: requests => do
        let cs ← rebuildIndex env (es (2 * index)) { cs with userRebuildRequests := requests } i true false
        .ok (cs, false)
      | [] =>
        match cs.lightRebuildRequests with
        | i :: requests => do
          let cs ← rebuildIndex env (es (2 * index)) { cs with lightRebuildRequests := requests } i true true
          .ok (cs, false)
        | [] => do
          let cs ← cs.serveGenRequest env (es (2 * index))
          match sorted[index]? with
          | none => .error .index
          | some facade => do
            let cs ← cs.moveAndRebuild env (es (2 * index + 1)) facade.geoIndex ns
            attendSpots env es busy sorted (index + 1) rest cs

/-- A pass. -/
def attendNeededSpots (env : Externals) (es : ℕ → Entropy) (busy : ℕ → Bool) (cs : ChunkSystem)
    (userCpos userCPos : IVec2) : Except Panic (ChunkSystem × Bool) :=
  attendSpots env es busy (cs.sortedChunkFacades userCpos) 0 (cs.neededspots userCpos userCPos) cs

theorem mem_neededSquare {radius : UInt8} {userCpos p : IVec2} : p ∈ neededSquare radius userCpos ↔
    (userCpos.x - radius.toNat ≤ p.x ∧ p.x < userCpos.x + radius.toNat) ∧
      userCpos.y - radius.toNat ≤ p.y ∧ p.y < userCpos.y + radius.toNat := by
  simp only [neededSquare, List.mem_flatMap, List.mem_map, Int.mem_range_iff]
  constructor
  · rintro ⟨i, hi, k, hk, rfl⟩
    simp only
    omega
  · rintro ⟨hx, hy⟩
    refine ⟨p.x - userCpos.x, by omega, p.y - userCpos.y, by omega, ?_⟩
    ext
    · simp
    · simp

theorem nodup_intRange (m n : ℤ) : (Int.range m n).Nodup :=
  List.nodup_range.map fun a b h => by simpa using h

theorem nodup_neededSquare (radius : UInt8) (userCpos : IVec2) : (neededSquare radius userCpos).Nodup := by
  refine List.nodup_flatMap.mpr ⟨fun i _ => (nodup_intRange _ _).map fun k k' h => ?_, ?_⟩
  · have := congrArg IVec2.y h
    simp only at this
    omega
  · refine (nodup_intRange _ _).imp fun {i i'} hne p hp hp' => hne ?_
    obtain ⟨k, -, rfl⟩ := List.mem_map.mp hp
    obtain ⟨k', -, h⟩ := List.mem_map.mp hp'
    have := congrArg IVec2.x h
    simp only at this
    omega

theorem length_neededSquare (radius : UInt8) (userCpos : IVec2) :
    (neededSquare radius userCpos).length = (2 * radius.toNat) * (2 * radius.toNat) := by
  have hlength : (Int.range (-radius.toNat) radius.toNat).length = 2 * radius.toNat := by
    rw [Int.range, List.length_map, List.length_range]
    omega
  simp [neededSquare, List.length_flatMap, hlength]

theorem mem_neededspots {cs : ChunkSystem} {userCpos userCPos p : IVec2} :
    p ∈ cs.neededspots userCpos userCPos ↔ p ∈ neededSquare cs.radius userCpos ∧ p ∉ cs.takencare := by
  rw [neededspots, List.mem_mergeSort, List.mem_filter, decide_eq_true_iff]

theorem nodup_neededspots (cs : ChunkSystem) (userCpos userCPos : IVec2) :
    (cs.neededspots userCpos userCPos).Nodup :=
  (List.mergeSort_perm _ _).nodup_iff.mpr ((nodup_neededSquare _ _).filter _)

/-- The chunk of the camera comes first. -/
theorem neededspots_head {cs : ChunkSystem} {userCpos userCPos : IVec2}
    (hneeded : userCPos ∈ neededSquare cs.radius userCpos) (hmissing : userCPos ∉ cs.takencare) :
    (cs.neededspots userCpos userCPos)[0]? = some userCPos := by
  have hmem : userCPos ∈ cs.neededspots userCpos userCPos := mem_neededspots.mpr ⟨hneeded, hmissing⟩
  have hsorted : (cs.neededspots userCpos userCPos).Pairwise fun a b => decide (dist a userCPos ≤ dist b userCPos) = true := by
    refine List.pairwise_mergeSort (fun a b c hab hbc => ?_) (fun a b => ?_) _
    · simp only [decide_eq_true_iff] at hab hbc ⊢
      omega
    · simp only [Bool.or_eq_true, decide_eq_true_iff]
      omega
  cases hl : cs.neededspots userCpos userCPos with
  | nil =>
    rw [hl] at hmem
    cases hmem
  | cons first rest =>
    rw [hl] at hmem hsorted
    rcases List.mem_cons.mp hmem with rfl | hrest
    · rfl
    · -- what comes before the camera's chunk is no farther from it, hence the same
      have hle := (List.pairwise_cons.mp hsorted).1 userCPos hrest
      simp only [decide_eq_true_iff, dist, sub_self] at hle
      have hx := sq_nonneg (first.x - userCPos.x)
      have hy := sq_nonneg (first.y - userCPos.y)
      have hx0 : (first.x - userCPos.x) ^ 2 = 0 := by omega
      have hy0 : (first.y - userCPos.y) ^ 2 = 0 := by omega
      rw [List.getElem?_cons_zero, Option.some.injEq]
      ext
      · exact sub_eq_zero.mp (pow_eq_zero_iff two_ne_zero |>.mp hx0)
      · exact sub_eq_zero.mp (pow_eq_zero_iff two_ne_zero |>.mp hy0)

theorem sortedChunkFacades_eq (cs : ChunkSystem) (userCpos : IVec2) :
    cs.sortedChunkFacades userCpos = partitioned (unusedOrDistant cs.radius userCpos) cs.chunks := by
  rw [sortedChunkFacades, List.partition_eq_filter_filter]
  rfl

end ChunkSystem

/-! ### A pass, seen from the registry -/

namespace Registry

/-- The slots of a list are moved to chunks, one after the other, and slots are rebuilt in
between. -/
inductive Pass : Registry → List (ℕ × IVec2) → Registry → Prop
  /-- Nothing is moved. -/
  | nil (r : Registry) : Pass r [] r
  /-- A slot is rebuilt. -/
  | rebuilt {r r' r'' : Registry} {moves : List (ℕ × IVec2)} (index : ℕ) : r.rebuild index = some r' →
      Pass r' moves r'' → Pass r moves r''
  /-- A slot is moved. -/
  | moved {r r' r'' : Registry} {moves : List (ℕ × IVec2)} {index : ℕ} {cpos : IVec2} : r.move index cpos = some r' →
      Pass r' moves r'' → Pass r ((index, cpos) :: moves) r''

variable {r r' : Registry} {index : ℕ} {cpos : IVec2} {moves : List (ℕ × IVec2)}

theorem Pass.bijective (h : Pass r moves r') (hb : r.Bijective) : r'.Bijective := by
  induction h with
  | nil => exact hb
  | rebuilt index hr _ ih => exact ih (hb.rebuild hr)
  | moved hm _ ih => exact ih (hb.move hm)

/-- A pass neither adds slots nor takes any away. -/
theorem Pass.length (h : Pass r moves r') : r'.chunks.length = r.chunks.length := by
  have hrebuild : ∀ {r r' : Registry} {index : ℕ}, r.rebuild index = some r' → r'.chunks.length = r.chunks.length := by
    intro r r' index hr
    obtain ⟨chunk, -, rfl⟩ := rebuild_cases hr
    exact List.length_set
  induction h with
  | nil => rfl
  | rebuilt index hr _ ih => exact ih.trans (hrebuild hr)
  | moved hm _ ih =>
    refine ih.trans ?_
    rcases move_cases hm with ⟨cf, -, hr⟩ | ⟨-, chunk, pos, -, -, rfl⟩
    · exact hrebuild hr
    · exact List.length_set

/-- **What a pass keeps**: if no slot that is moved holds a chunk of a set at the start, then
the slots that hold chunks of the set stay, and the chunks of the set that were registered
or were moved to are registered in the end. -/
theorem Pass.keeps {needed : Set IVec2} (h : Pass r moves r') (hb : r.Bijective) (hnodup : (moves.map Prod.fst).Nodup)
    (hmoves : ∀ m ∈ moves, ∀ p, r.posOf m.1 = some p → p ∉ needed) :
    (∀ j p, r.posOf j = some p → p ∈ needed → r'.posOf j = some p) ∧
      ∀ p ∈ needed, p ∈ r.takencare ∨ p ∈ moves.map Prod.snd → p ∈ r'.takencare := by
  induction h with
  | nil r => exact ⟨fun j p hj _ => hj, fun p _ hp => hp.resolve_right List.not_mem_nil⟩
  | @rebuilt r mid r' moves index hr _ ih =>
    obtain ⟨hslots, hmem⟩ := rebuild_effect hr
    obtain ⟨hstay, hreg⟩ := ih (hb.rebuild hr) hnodup fun m hm p hp => hmoves m hm p (hslots m.1 ▸ hp)
    refine ⟨fun j p hj => hstay j p (by rw [hslots, hj]), fun p hp hor => hreg p hp ?_⟩
    exact hor.imp_left fun h => (hmem p).mpr (.inl h)
  | @moved r mid r' moves index cpos hm _ ih =>
    rw [List.map_cons, List.nodup_cons] at hnodup
    have hrest : ∀ m ∈ moves, ∀ p, r.posOf m.1 = some p → p ∉ needed := fun m hmem => hmoves m (List.mem_cons_of_mem _ hmem)
    rcases move_effect hb hm with ⟨hcpos, hslots, hmem⟩ | ⟨-, hslots, hmem⟩
    · obtain ⟨hstay, hreg⟩ := ih (hb.move hm) hnodup.2 fun m hm p hp => hrest m hm p (hslots m.1 ▸ hp)
      refine ⟨fun j p hj => hstay j p (by rw [hslots, hj]), fun p hp hor => hreg p hp ?_⟩
      rcases hor with h | h
      · exact .inl (hmem p h)
      · rcases List.mem_cons.mp h with rfl | h
        · exact .inl (hmem _ hcpos)
        · exact .inr h
    · -- the slot that moves is not among those that move later, and holds nothing of the set
      have hfirst : ∀ p, r.posOf index = some p → p ∉ needed := hmoves (index, cpos) List.mem_cons_self
      obtain ⟨hstay, hreg⟩ := ih (hb.move hm) hnodup.2 fun m hm p hp => by
        rw [hslots, if_neg (fun he => hnodup.1 (List.mem_map.mpr ⟨m, hm, he⟩))] at hp
        exact hrest m hm p hp
      refine ⟨fun j p hj hp => hstay j p ?_ hp, fun p hp hor => hreg p hp ?_⟩
      · rw [hslots, if_neg, hj]
        rintro rfl
        exact hfirst p hj hp
      · rcases hor with h | h
        · exact .inl ((hmem p).mpr (.inr ⟨h, fun hi => hfirst p hi hp⟩))
        · rcases List.mem_cons.mp h with rfl | h
          · exact .inl ((hmem _).mpr (.inl rfl))
          · exact .inr h

/-- **Where a pass leaves the slots**: if the chunks moved to were not registered at the
start, each slot that is moved holds its new chunk in the end, and the others stay. -/
theorem Pass.positions (h : Pass r moves r') (hb : r.Bijective) (hfst : (moves.map Prod.fst).Nodup)
    (hsnd : (moves.map Prod.snd).Nodup) (hnew : ∀ m ∈ moves, m.2 ∉ r.takencare ∧ m.2 ≠ defaultPos) :
    (∀ m ∈ moves, r'.posOf m.1 = some m.2) ∧ ∀ j ∉ moves.map Prod.fst, r'.posOf j = r.posOf j := by
  induction h with
  | nil r => exact ⟨fun m hm => absurd hm List.not_mem_nil, fun j _ => rfl⟩
  | @rebuilt r mid r' moves index hr _ ih =>
    obtain ⟨hslots, hmem⟩ := rebuild_effect hr
    -- a rebuild registers nothing that is moved to later, since a slot that holds a chunk is registered
    have hlater : ∀ m ∈ moves, m.2 ∉ mid.takencare ∧ m.2 ≠ defaultPos := by
      refine fun m hm => ⟨fun hreg => ?_, (hnew m hm).2⟩
      rcases (hmem m.2).mp hreg with h | h
      · exact (hnew m hm).1 h
      · obtain ⟨c, hc, hcp⟩ := Option.map_eq_some_iff.mp h
        obtain ⟨f, hf, -⟩ := hb.registered index c hc (hcp ▸ (hnew m hm).2)
        exact (hnew m hm).1 (Finmap.mem_iff.mpr ⟨f, hcp ▸ hf⟩)
    obtain ⟨hto, hstay⟩ := ih (hb.rebuild hr) hfst hsnd hlater
    exact ⟨hto, fun j hj => (hstay j hj).trans (hslots j)⟩
  | @moved r mid r' moves index cpos hm _ ih =>
    rw [List.map_cons, List.nodup_cons] at hfst hsnd
    obtain ⟨hcpos, -⟩ := hnew (index, cpos) List.mem_cons_self
    rcases move_effect hb hm with ⟨hreg, -⟩ | ⟨-, hslots, hmem⟩
    · exact absurd hreg hcpos
    · obtain ⟨hto, hstay⟩ := ih (hb.move hm) hfst.2 hsnd.2 fun m hm => by
        obtain ⟨hnot, hdef⟩ := hnew m (List.mem_cons_of_mem _ hm)
        refine ⟨?_, hdef⟩
        intro hreg
        rcases (hmem m.2).mp hreg with h | ⟨h, -⟩
        · exact hsnd.1 (List.mem_map.mpr ⟨m, hm, h⟩)
        · exact hnot h
      refine ⟨?_, ?_⟩
      · intro m hm
        rcases List.mem_cons.mp hm with rfl | hm
        · rw [hstay _ hfst.1, hslots, if_pos rfl]
        · exact hto m hm
      · intro j hj
        rw [List.map_cons, List.mem_cons, not_or] at hj
        rw [hstay j hj.2, hslots, if_neg hj.1]

end Registry

namespace ChunkSystem

variable {env : Externals} {e : Entropy} {es : ℕ → Entropy} {busy : ℕ → Bool} {cs cs' : ChunkSystem}
  {userCpos userCPos : IVec2}

/-- The moves of a pass that comes to its end. -/
def plannedMoves (sorted : List ChunkFacade) (needed : List IVec2) : List (ℕ × IVec2) :=
  (sorted.map ChunkFacade.geoIndex).zip needed

theorem radius_rebuildIndex {index : ℕ} {userPower light : Bool}
    (h : cs.rebuildIndex env e index userPower light = .ok cs') : cs'.radius = cs.radius := by
  obtain ⟨chunk, geo, -, -, rfl⟩ := rebuildIndex_spec h
  rfl

theorem radius_moveAndRebuild {index : ℕ} {cpos : IVec2} (h : cs.moveAndRebuild env e index cpos = .ok cs') :
    cs'.radius = cs.radius := by
  rcases moveAndRebuild_cases h with ⟨cf, -, hr⟩ | ⟨-, placed, generated, hp, hg, hr⟩
  · exact radius_rebuildIndex hr
  · rw [radius_rebuildIndex hr]
    obtain ⟨rows, slots, rfl, -⟩ := generateChunk_spec hg
    obtain ⟨chunk, geo, -, -, rfl⟩ := place_spec hp
    rfl

/-- A request that is taken from a queue and served, seen from the registry. -/
theorem registry_served {asked : ChunkSystem} {index : ℕ} {userPower light : Bool} (hregistry : asked.registry = cs.registry)
    (hradius : asked.radius = cs.radius) (h : asked.rebuildIndex env e index userPower light = .ok cs') :
    cs'.radius = cs.radius ∧ cs.registry.rebuild index = some cs'.registry :=
  ⟨(radius_rebuildIndex h).trans hradius, hregistry ▸ registry_rebuildIndex h⟩

theorem registry_serveGenRequest (h : cs.serveGenRequest env e = .ok cs') : cs'.radius = cs.radius ∧
    (cs'.registry = cs.registry ∨ ∃ index, cs.registry.rebuild index = some cs'.registry) := by
  unfold serveGenRequest at h
  split at h
  · next i requests _ =>
    obtain ⟨hradius, hrebuild⟩ := registry_served rfl rfl h
    exact ⟨hradius, .inr ⟨i, hrebuild⟩⟩
  · cases h
    exact ⟨rfl, .inl rfl⟩

/-- **One turn of the loop**: it stops, perhaps after a rebuild, or it moves the next slot,
perhaps after a rebuild. -/
theorem attendSpots_cons {sorted : List ChunkFacade} {index : ℕ} {ns : IVec2} {rest : List IVec2} {finished : Bool}
    (h : attendSpots env es busy sorted index (ns :: rest) cs = .ok (cs', finished)) :
    (finished = false ∧ cs'.radius = cs.radius ∧
      (cs'.registry = cs.registry ∨ ∃ i, cs.registry.rebuild i = some cs'.registry)) ∨
    ∃ served moved facade, cs.serveGenRequest env (es (2 * index)) = .ok served ∧ sorted[index]? = some facade ∧
      served.moveAndRebuild env (es (2 * index + 1)) facade.geoIndex ns = .ok moved ∧
      attendSpots env es busy sorted (index + 1) rest moved = .ok (cs', finished) := by
  unfold attendSpots at h
  split at h
  · cases h
    exact .inl ⟨rfl, rfl, .inl rfl⟩
  · split at h
    · next i requests _ =>
      cases hr : rebuildIndex env (es (2 * index)) { cs with userRebuildRequests := requests } i true false with
      | error p => rw [hr] at h; cases h
      | ok mid =>
        rw [hr] at h
        cases h
        obtain ⟨hradius, hrebuild⟩ := registry_served rfl rfl hr
        exact .inl ⟨rfl, hradius, .inr ⟨i, hrebuild⟩⟩
    · split at h
      · next i requests _ =>
        cases hr : rebuildIndex env (es (2 * index)) { cs with lightRebuildRequests := requests } i true true with
        | error p => rw [hr] at h; cases h
        | ok mid =>
          rw [hr] at h
          cases h
          obtain ⟨hradius, hrebuild⟩ := registry_served rfl rfl hr
          exact .inl ⟨rfl, hradius, .inr ⟨i, hrebuild⟩⟩
      · cases hs : cs.serveGenRequest env (es (2 * index)) with
        | error p => rw [hs] at h; cases h
        | ok served =>
          rw [hs] at h
          simp only [bind, Except.bind] at h
          cases hf : sorted[index]? with
          | none => rw [hf] at h; cases h
          | some facade =>
            rw [hf] at h
            simp only at h
            cases hm : served.moveAndRebuild env (es (2 * index + 1)) facade.geoIndex ns with
            | error p => rw [hm] at h; cases h
            | ok moved =>
              rw [hm] at h
              exact .inr ⟨served, moved, facade, rfl, rfl, hm, h⟩

/-- **The loop, seen from the registry**: it is a pass, and one that comes to its end makes
the moves it planned. -/
theorem pass_attendSpots {sorted : List ChunkFacade} {index : ℕ} {needed : List IVec2} {finished : Bool}
    (h : attendSpots env es busy sorted index needed cs = .ok (cs', finished)) : cs'.radius = cs.radius ∧
    ∃ moves, Registry.Pass cs.registry moves cs'.registry ∧ (finished = true →
      moves = plannedMoves (sorted.drop index) needed ∧ needed.length ≤ (sorted.drop index).length) := by
  induction needed generalizing index cs with
  | nil =>
    cases h
    exact ⟨rfl, [], .nil _, fun _ => ⟨by simp [plannedMoves], Nat.zero_le _⟩⟩
  | cons ns rest ih =>
    rcases attendSpots_cons h with ⟨rfl, hradius, hr⟩ | ⟨served, moved, facade, hs, hf, hm, hrest⟩
    · refine ⟨hradius, [], ?_, fun hf => by cases hf⟩
      rcases hr with hr | ⟨i, hr⟩
      · exact hr ▸ .nil _
      · exact .rebuilt i hr (.nil _)
    · obtain ⟨hradius, hserve⟩ := registry_serveGenRequest hs
      obtain ⟨hradius', moves, hpass, hplan⟩ := ih hrest
      have hdrop : sorted.drop index = facade :: sorted.drop (index + 1) := by
        obtain ⟨hlt, rfl⟩ := List.getElem?_eq_some_iff.mp hf
        exact List.drop_eq_getElem_cons hlt
      refine ⟨hradius'.trans ((radius_moveAndRebuild hm).trans hradius), (facade.geoIndex, ns) :: moves, ?_, ?_⟩
      · rcases hserve with hr | ⟨i, hr⟩
        · exact hr ▸ .moved (registry_moveAndRebuild hm) hpass
        · exact .rebuilt i hr (.moved (registry_moveAndRebuild hm) hpass)
      · intro hfin
        obtain ⟨rfl, hlength⟩ := hplan hfin
        rw [hdrop]
        exact ⟨rfl, Nat.succ_le_succ hlength⟩

/-! ### Runs -/

/-- The states of the runs of passes from a fresh system, in which slots may be rebuilt
between passes, and what the registry does not know may change. -/
inductive Walked (env : Externals) : ChunkSystem → Prop
  /-- A fresh system. -/
  | fresh (radius : UInt8) (seed : UInt32) (noisetype : ℕ) (headless : Bool) (models : Option (List JVoxModel)) :
      Walked env { new env radius seed noisetype headless with voxelModels := models }
  /-- A pass, that comes to its end or not. -/
  | attended {cs cs' : ChunkSystem} {finished : Bool} (es : ℕ → Entropy) (busy : ℕ → Bool) (userCpos userCPos : IVec2) :
      Walked env cs → cs.attendNeededSpots env es busy userCpos userCPos = .ok (cs', finished) → Walked env cs'
  /-- A slot is rebuilt. -/
  | rebuilt {cs cs' : ChunkSystem} (e : Entropy) (index : ℕ) (userPower light : Bool) :
      Walked env cs → cs.rebuildIndex env e index userPower light = .ok cs' → Walked env cs'
  /-- Something else changes. -/
  | changed {cs cs' : ChunkSystem} : Walked env cs → cs'.registry = cs.registry → cs'.radius = cs.radius → Walked env cs'

theorem Walked.bijective (h : Walked env cs) : cs.registry.Bijective := by
  induction h with
  | fresh radius seed noisetype headless models => exact bijective_new env radius seed noisetype headless models
  | attended es busy userCpos userCPos _ hpass ih =>
    obtain ⟨-, moves, hpass, -⟩ := pass_attendSpots hpass
    exact hpass.bijective ih
  | rebuilt e index userPower light _ hr ih => exact ih.rebuild (registry_rebuildIndex hr)
  | changed _ hregistry _ ih => exact hregistry ▸ ih

/-! ### What a pass keeps -/

/-- How many needed chunks no slot holds. -/
def missing (cs : ChunkSystem) (userCpos : IVec2) : ℕ :=
  (neededSquare cs.radius userCpos).countP (· ∉ cs.takencare)

/-- There are slots enough, and those with a needed position have, in the order in which slots
are moved, as many slots before them as needed chunks are missing: of the slots that were
never rebuilt or are far, those with smaller numbers, and before the others all of these. -/
structure Spared (cs : ChunkSystem) (userCpos : IVec2) : Prop where
  /-- There are slots enough. -/
  enough : cs.missing userCpos ≤ cs.chunks.length
  /-- Slots with a needed position come late. -/
  late : ∀ (j : ℕ) (c : ChunkFacade), cs.chunks[j]? = some c → c.pos ∈ neededSquare cs.radius userCpos →
    cs.missing userCpos ≤ rank (unusedOrDistant cs.radius userCpos) cs.chunks j c

/-- Slots with a needed position stay, and all needed chunks are registered in the end. -/
structure NeededKept (cs cs' : ChunkSystem) (userCpos : IVec2) : Prop where
  /-- Slots with a needed position stay. -/
  stays : ∀ (j : ℕ) (c : ChunkFacade), cs.chunks[j]? = some c → c.pos ∈ neededSquare cs.radius userCpos →
    (cs'.chunks[j]?).map ChunkFacade.pos = some c.pos
  /-- What is needed is registered. -/
  held : ∀ p ∈ neededSquare cs.radius userCpos, p ∈ cs'.takencare

/-- There are as many slots as at the start of the run. -/
theorem Walked.length (h : Walked env cs) :
    cs.chunks.length = side cs.radius * side cs.radius ∨ cs.chunks.length = 0 := by
  induction h with
  | fresh radius seed noisetype headless models =>
    cases headless with
    | false => exact .inl (by simp [new, freshChunks])
    | true => exact .inr rfl
  | attended es busy userCpos userCPos _ hpass ih =>
    obtain ⟨hradius, moves, hpass, -⟩ := pass_attendSpots hpass
    have hlength := hpass.length
    simp only [registry] at hlength
    rwa [hradius, hlength]
  | rebuilt e index userPower light _ hr ih =>
    have hlength := (Registry.Pass.rebuilt index (registry_rebuildIndex hr) (.nil _)).length
    simp only [registry] at hlength
    rwa [radius_rebuildIndex hr, hlength]
  | changed _ hregistry hradius ih =>
    have hlength := congrArg (fun r => r.chunks.length) hregistry
    simp only [registry] at hlength
    rwa [hradius, hlength]

/-- **Up to a radius of `125` there are slots enough**, unless there are none at all. -/
theorem missing_le_slots (h : Walked env cs) (hradius : cs.radius ≤ 125) (hslots : cs.chunks ≠ []) (userCpos : IVec2) :
    cs.missing userCpos ≤ cs.chunks.length := by
  have hmissing : cs.missing userCpos ≤ (2 * cs.radius.toNat) * (2 * cs.radius.toNat) := by
    rw [← length_neededSquare cs.radius userCpos]
    exact List.countP_le_length
  have hle : cs.radius.toNat ≤ 125 := hradius
  have hside : side cs.radius = 2 * cs.radius.toNat + 5 := by
    rw [side, UInt8.toNat_add, UInt8.toNat_mul]
    simp only [UInt8.reduceToNat]
    omega
  rcases h.length with hlength | hlength
  · rw [hlength, hside]
    exact hmissing.trans (Nat.mul_le_mul (by omega) (by omega))
  · exact absurd (List.length_eq_zero_iff.mp hlength) hslots

theorem length_neededspots (cs : ChunkSystem) (userCpos userCPos : IVec2) :
    (cs.neededspots userCpos userCPos).length = cs.missing userCpos := by
  rw [neededspots, List.length_mergeSort, missing, List.countP_eq_length_filter]

/-- Each planned move is that of the slot whose rank is the place of the needed chunk. -/
theorem mem_plannedMoves (hb : cs.registry.Bijective) {m : ℕ × IVec2}
    (h : m ∈ plannedMoves (cs.sortedChunkFacades userCpos) (cs.neededspots userCpos userCPos)) :
    ∃ c, cs.chunks[m.1]? = some c ∧ rank (unusedOrDistant cs.radius userCpos) cs.chunks m.1 c < cs.missing userCpos ∧
      m.2 ∈ cs.neededspots userCpos userCPos := by
  obtain ⟨i, hi⟩ := List.mem_iff_getElem?.mp h
  obtain ⟨hslot, hneeded⟩ := List.getElem?_zip_eq_some.mp hi
  rw [List.getElem?_map, sortedChunkFacades_eq] at hslot
  obtain ⟨c, hc, hindex⟩ := Option.map_eq_some_iff.mp hslot
  obtain ⟨j, hj, hrank⟩ := exists_rank hc
  have hnumber : m.1 = j := hindex ▸ hb.index j c hj
  refine ⟨c, hnumber ▸ hj, ?_, List.mem_of_getElem? hneeded⟩
  rw [hnumber, hrank, ← length_neededspots cs userCpos userCPos]
  exact (List.getElem?_eq_some_iff.mp hneeded).1

/-- A slot whose rank is less than the number of missing chunks is moved. -/
theorem exists_plannedMove (hb : cs.registry.Bijective) {j : ℕ} {c : ChunkFacade} (hc : cs.chunks[j]? = some c)
    (h : rank (unusedOrDistant cs.radius userCpos) cs.chunks j c < cs.missing userCpos) :
    ∃ p, (j, p) ∈ plannedMoves (cs.sortedChunkFacades userCpos) (cs.neededspots userCpos userCPos) := by
  rw [← length_neededspots cs userCpos userCPos] at h
  refine ⟨_, List.mem_iff_getElem?.mpr ⟨_, List.getElem?_zip_eq_some.mpr ⟨?_, List.getElem?_eq_getElem h⟩⟩⟩
  rw [List.getElem?_map, sortedChunkFacades_eq, getElem?_partition hc, Option.map_some, hb.index j c hc]

theorem map_fst_zip_sublist {α β : Type*} (l : List α) (l' : List β) : ((l.zip l').map Prod.fst).Sublist l := by
  induction l generalizing l' with
  | nil => exact List.Sublist.refl []
  | cons a l ih =>
    cases l' with
    | nil => exact List.nil_sublist _
    | cons b l' => exact (ih l').cons_cons a

theorem map_snd_zip_sublist {α β : Type*} (l : List α) (l' : List β) : ((l.zip l').map Prod.snd).Sublist l' := by
  induction l generalizing l' with
  | nil => exact List.nil_sublist _
  | cons a l ih =>
    cases l' with
    | nil => exact List.Sublist.refl []
    | cons b l' => exact (ih l').cons_cons b

/-- No slot is moved twice, and no chunk moved to twice. -/
theorem nodup_plannedMoves (hb : cs.registry.Bijective) :
    ((plannedMoves (cs.sortedChunkFacades userCpos) (cs.neededspots userCpos userCPos)).map Prod.fst).Nodup ∧
      ((plannedMoves (cs.sortedChunkFacades userCpos) (cs.neededspots userCpos userCPos)).map Prod.snd).Nodup := by
  have hslots : (cs.chunks.map ChunkFacade.geoIndex).Nodup := by
    have hrange : cs.chunks.map ChunkFacade.geoIndex = List.range cs.chunks.length := by
      apply List.ext_getElem (by simp)
      intro i hi hi'
      rw [List.length_map] at hi
      rw [List.getElem_map, List.getElem_range]
      exact hb.index i _ (List.getElem?_eq_getElem hi)
    rw [hrange]
    exact List.nodup_range
  have hsorted : ((cs.sortedChunkFacades userCpos).map ChunkFacade.geoIndex).Nodup := by
    rw [sortedChunkFacades_eq]
    exact ((List.filter_append_perm _ _).map _).nodup_iff.mpr hslots
  exact ⟨hsorted.sublist (map_fst_zip_sublist _ _),
    (nodup_neededspots cs userCpos userCPos).sublist (map_snd_zip_sublist _ _)⟩

/-- A pass that comes to its end makes the moves it planned, and has slots enough. -/
theorem pass_attendNeededSpots (h : cs.attendNeededSpots env es busy userCpos userCPos = .ok (cs', true)) :
    cs'.radius = cs.radius ∧ cs.missing userCpos ≤ cs.chunks.length ∧
      Registry.Pass cs.registry (plannedMoves (cs.sortedChunkFacades userCpos) (cs.neededspots userCpos userCPos))
        cs'.registry := by
  obtain ⟨hradius, moves, hpass, hplan⟩ := pass_attendSpots h
  obtain ⟨rfl, hlength⟩ := hplan rfl
  rw [List.drop_zero] at hpass hlength
  rw [length_neededspots, sortedChunkFacades_eq, length_partitioned] at hlength
  exact ⟨hradius, hlength, hpass⟩

/-- If the slots with a needed position come late, what is needed is kept. -/
theorem neededKept_of_spared (hb : cs.registry.Bijective) (hs : cs.Spared userCpos)
    (h : cs.attendNeededSpots env es busy userCpos userCPos = .ok (cs', true)) : NeededKept cs cs' userCpos := by
  obtain ⟨-, -, hpass⟩ := pass_attendNeededSpots h
  have hmoves : ∀ m ∈ plannedMoves (cs.sortedChunkFacades userCpos) (cs.neededspots userCpos userCPos),
      ∀ p, cs.registry.posOf m.1 = some p → p ∉ {p | p ∈ neededSquare cs.radius userCpos} := by
    intro m hm p hp hneeded
    obtain ⟨c, hc, hrank, -⟩ := mem_plannedMoves hb hm
    simp only [Registry.posOf, registry, hc, Option.map_some, Option.some.injEq] at hp
    have hlate := hs.late m.1 c hc (hp ▸ hneeded)
    omega
  obtain ⟨hstay, hheld⟩ := hpass.keeps hb (nodup_plannedMoves hb).1 hmoves
  refine ⟨fun j c hc hneeded => hstay j c.pos (by simp only [Registry.posOf, registry, hc, Option.map_some]) hneeded,
    fun p hp => hheld p hp ?_⟩
  by_cases hmem : p ∈ cs.takencare
  · exact .inl hmem
  · right
    have hlength : (cs.neededspots userCpos userCPos).length ≤
        ((cs.sortedChunkFacades userCpos).map ChunkFacade.geoIndex).length := by
      rw [length_neededspots, List.length_map, sortedChunkFacades_eq, length_partitioned]
      exact hs.enough
    rw [plannedMoves, List.map_snd_zip hlength]
    exact mem_neededspots.mpr ⟨hp, hmem⟩

/-- The chunks that a pass moves slots to are registered nowhere. -/
theorem plannedMoves_new (hb : cs.registry.Bijective) (hdefault : defaultPos ∉ neededSquare cs.radius userCpos)
    {m : ℕ × IVec2} (hm : m ∈ plannedMoves (cs.sortedChunkFacades userCpos) (cs.neededspots userCpos userCPos)) :
    m.2 ∉ cs.takencare ∧ m.2 ≠ defaultPos := by
  obtain ⟨-, -, -, hneeded⟩ := mem_plannedMoves hb hm
  obtain ⟨hsquare, hnot⟩ := mem_neededspots.mp hneeded
  exact ⟨hnot, fun hd => hdefault (hd ▸ hsquare)⟩

/-- Each slot that a pass moves holds its new chunk in the end, and the others stay. -/
theorem positions_attendNeededSpots (hb : cs.registry.Bijective) (hdefault : defaultPos ∉ neededSquare cs.radius userCpos)
    (h : cs.attendNeededSpots env es busy userCpos userCPos = .ok (cs', true)) :
    (∀ m ∈ plannedMoves (cs.sortedChunkFacades userCpos) (cs.neededspots userCpos userCPos),
      cs'.registry.posOf m.1 = some m.2) ∧
    ∀ j ∉ (plannedMoves (cs.sortedChunkFacades userCpos) (cs.neededspots userCpos userCPos)).map Prod.fst,
      cs'.registry.posOf j = cs.registry.posOf j := by
  obtain ⟨-, -, hpass⟩ := pass_attendNeededSpots h
  obtain ⟨hfst, hsnd⟩ : ((plannedMoves (cs.sortedChunkFacades userCpos) (cs.neededspots userCpos userCPos)).map
      Prod.fst).Nodup ∧ _ := nodup_plannedMoves hb
  exact hpass.positions hb hfst hsnd fun m hm => plannedMoves_new hb hdefault hm

/-- A chunk that a slot holds after a pass is one that the slot held before, or is needed. -/
theorem posOf_attendNeededSpots (hb : cs.registry.Bijective) (hdefault : defaultPos ∉ neededSquare cs.radius userCpos)
    (h : cs.attendNeededSpots env es busy userCpos userCPos = .ok (cs', true)) {j : ℕ} {p : IVec2}
    (hj : cs'.registry.posOf j = some p) : cs.registry.posOf j = some p ∨ p ∈ neededSquare cs.radius userCpos := by
  obtain ⟨hto, hstay⟩ := positions_attendNeededSpots hb hdefault h
  by_cases hm : j ∈ (plannedMoves (cs.sortedChunkFacades userCpos) (cs.neededspots userCpos userCPos)).map Prod.fst
  · obtain ⟨m, hmove, rfl⟩ := List.mem_map.mp hm
    obtain ⟨-, -, -, hneeded⟩ := mem_plannedMoves hb hmove
    rw [hto m hmove, Option.some.injEq] at hj
    rw [mem_neededspots, hj] at hneeded
    exact .inr hneeded.1
  · rw [hstay _ hm] at hj
    exact .inl hj

/-- A slot that holds a chunk and is moved holds another in the end, and the chunk is not
registered any more. -/
theorem evicted {j : ℕ} {c : ChunkFacade} (hb : cs.registry.Bijective) (hdefault : defaultPos ∉ neededSquare cs.radius userCpos)
    (h : cs.attendNeededSpots env es busy userCpos userCPos = .ok (cs', true)) (hc : cs.chunks[j]? = some c)
    (hpos : c.pos ≠ defaultPos) (hrank : rank (unusedOrDistant cs.radius userCpos) cs.chunks j c < cs.missing userCpos) :
    (cs'.chunks[j]?).map ChunkFacade.pos ≠ some c.pos ∧ c.pos ∉ cs'.takencare := by
  obtain ⟨-, -, hpass⟩ := pass_attendNeededSpots h
  have hnew : ∀ m ∈ plannedMoves (cs.sortedChunkFacades userCpos) (cs.neededspots userCpos userCPos), _ :=
    fun m hm => plannedMoves_new hb hdefault hm
  obtain ⟨hto, hstay⟩ := positions_attendNeededSpots hb hdefault h
  obtain ⟨f, hf, hfj⟩ := hb.registered j c hc hpos
  have hmem : c.pos ∈ cs.takencare := Finmap.mem_iff.mpr ⟨f, hf⟩
  obtain ⟨p, hp⟩ : ∃ p, (j, p) ∈ plannedMoves (cs.sortedChunkFacades userCpos) (cs.neededspots userCpos userCPos) :=
    exists_plannedMove hb hc hrank
  have hmoved : cs'.registry.posOf j = some p := hto (j, p) hp
  refine ⟨?_, ?_⟩
  · intro he
    have : p = c.pos := Option.some.inj (hmoved.symm.trans he)
    exact (hnew (j, p) hp).1 (this ▸ hmem)
  · intro hreg
    -- who holds the chunk in the end has not moved, so it held it at the start, and was this slot
    obtain ⟨g, hg⟩ := Finmap.mem_iff.mp hreg
    obtain ⟨-, d, hd, hdp⟩ := (hpass.bijective hb).held c.pos g hg
    have hposd : cs'.registry.posOf g.geoIndex = some c.pos := by
      simp only [Registry.posOf, hd, Option.map_some, hdp]
    by_cases hm : g.geoIndex ∈ (plannedMoves (cs.sortedChunkFacades userCpos) (cs.neededspots userCpos userCPos)).map Prod.fst
    · obtain ⟨m, hm, hmg⟩ := List.mem_map.mp hm
      have hm2 := hto m hm
      rw [hmg, hposd, Option.some.injEq] at hm2
      exact (hnew m hm).1 (hm2 ▸ hmem)
    · rw [hstay _ hm] at hposd
      obtain ⟨d', hd', hdp'⟩ := Option.map_eq_some_iff.mp hposd
      have hj : g.geoIndex = j := hb.unique hd' hc hdp' (hdp' ▸ hpos)
      exact hm (hj ▸ List.mem_map.mpr ⟨(j, p), hp, rfl⟩)

/-- What stands past the end of the slots does not matter to a pass that has slots enough. -/
theorem attendSpots_append {sorted : List ChunkFacade} {index : ℕ} {needed : List IVec2}
    (h : index + needed.length ≤ sorted.length) (more : List ChunkFacade) :
    attendSpots env es busy (sorted ++ more) index needed cs = attendSpots env es busy sorted index needed cs := by
  induction needed generalizing index cs with
  | nil => rfl
  | cons ns rest ih =>
    rw [List.length_cons] at h
    have hget : (sorted ++ more)[index]? = sorted[index]? := List.getElem?_append_left (by omega)
    have hrest : ∀ cs : ChunkSystem, attendSpots env es busy (sorted ++ more) (index + 1) rest cs =
        attendSpots env es busy sorted (index + 1) rest cs := fun cs => ih (by omega)
    unfold attendSpots
    simp only [hget, hrest]

/-- A pass that misses nothing does nothing. -/
theorem attendNeededSpots_of_held (h : ∀ p ∈ neededSquare cs.radius userCpos, p ∈ cs.takencare) :
    cs.attendNeededSpots env es busy userCpos userCPos = .ok (cs, true) := by
  have hnone : cs.neededspots userCpos userCPos = [] :=
    List.eq_nil_iff_forall_not_mem.mpr fun p hp => (mem_neededspots.mp hp).2 (h p (mem_neededspots.mp hp).1)
  rw [attendNeededSpots, hnone]
  rfl

/-- **A pass keeps what is needed, exactly when the slots with a needed position come late**, in
every state of a run. If they do, the pass looks at no slot past the last, and if it comes to
its end, the slots with a needed position have stayed, all needed chunks are registered, and
another pass does nothing. If what is needed was kept, they came late. A pass stops when the user
waits for a slot, and a move of its own can ask for one: such a pass does not come to its end, and
nothing is said of it. -/
theorem attendNeededSpots_keeps_iff (h : Walked env cs) (es : ℕ → Entropy) (busy : ℕ → Bool) (userCpos userCPos : IVec2) :
    (cs.Spared userCpos → ∀ more, attendSpots env es busy (cs.sortedChunkFacades userCpos ++ more) 0
      (cs.neededspots userCpos userCPos) cs = cs.attendNeededSpots env es busy userCpos userCPos) ∧
    ∀ cs', cs.attendNeededSpots env es busy userCpos userCPos = .ok (cs', true) →
      (cs.Spared userCpos → NeededKept cs cs' userCpos ∧
        ∀ es' busy', cs'.attendNeededSpots env es' busy' userCpos userCPos = .ok (cs', true)) ∧
      (defaultPos ∉ neededSquare cs.radius userCpos → NeededKept cs cs' userCpos → cs.Spared userCpos) := by
  have hb := h.bijective
  refine ⟨fun hs more => attendSpots_append ?_ more, fun cs' hpass => ⟨fun hs => ?_, fun hdefault hkept => ?_⟩⟩
  · rw [length_neededspots, sortedChunkFacades_eq, length_partitioned, Nat.zero_add]
    exact hs.enough
  · have hkept := neededKept_of_spared hb hs hpass
    obtain ⟨hradius, -⟩ := pass_attendNeededSpots hpass
    refine ⟨hkept, fun es' busy' => attendNeededSpots_of_held ?_⟩
    rw [hradius]
    exact hkept.held
  · obtain ⟨-, henough, -⟩ := pass_attendNeededSpots hpass
    refine ⟨henough, ?_⟩
    intro j c hc hneeded
    by_contra hlt
    obtain ⟨hmoved, -⟩ := evicted hb hdefault hpass hc (fun hd => hdefault (hd ▸ hneeded)) (Nat.lt_of_not_le hlt)
    exact hmoved (hkept.stays j c hc hneeded)

/-! ### Passes in the dark -/

/-- A world of air without light, in which nothing is asked for. -/
structure Dark (cs : ChunkSystem) : Prop where
  /-- The terrain is air. -/
  barren : cs.perlin = .barren
  /-- There is no light. -/
  unlit : cs.lightmap = ∅
  /-- No block gives light. -/
  noLight : ∀ x, Blocks.isLight (cs.blockat x) = false
  /-- No rebuild for the user is asked for. -/
  user : cs.userRebuildRequests = []
  /-- No light rebuild is asked for. -/
  light : cs.lightRebuildRequests = []
  /-- No rebuild next to new terrain is asked for. -/
  gen : cs.genRebuildRequests = []

theorem Dark.rebuildIndex {index : ℕ} {userPower light : Bool} (hd : cs.Dark)
    (h : cs.rebuildIndex env e index userPower light = .ok cs') : cs'.Dark := by
  obtain ⟨chunk, geo, -, -, rfl⟩ := rebuildIndex_spec h
  have hpass : (cs.lightpassIf e light chunk.pos).lightmap = cs.lightmap ∧
      (cs.lightpassIf e light chunk.pos).userRebuildRequests = cs.userRebuildRequests := by
    unfold lightpassIf
    split
    · rw [lightpassOnChunk_of_dark e hd.unlit hd.noLight]
      exact ⟨rfl, rfl⟩
    · exact ⟨rfl, rfl⟩
  exact ⟨hd.barren, hpass.1.trans hd.unlit, hd.noLight, hpass.2.trans hd.user, hd.light, hd.gen⟩

theorem Dark.moveAndRebuild {index : ℕ} {cpos : IVec2} (hd : cs.Dark)
    (h : cs.moveAndRebuild env e index cpos = .ok cs') : cs'.Dark := by
  rcases moveAndRebuild_cases h with ⟨cf, -, hr⟩ | ⟨-, placed, generated, hp, hg, hr⟩
  · exact hd.rebuildIndex hr
  · have hplaced : placed.Dark := by
      obtain ⟨chunk, geo, -, -, rfl⟩ := place_spec hp
      exact ⟨hd.barren, hd.unlit, hd.noLight, hd.user, hd.light, hd.gen⟩
    rw [generateChunk_barren env e hplaced.barren] at hg
    cases hg
    exact hplaced.rebuildIndex hr

/-- In the dark a pass comes to its end. -/
theorem Dark.attendSpots {sorted : List ChunkFacade} {index : ℕ} {needed : List IVec2} (hd : cs.Dark)
    (hb : cs.registry.Bijective) (hlength : index + needed.length ≤ sorted.length)
    (hslots : ∀ facade ∈ sorted, facade.geoIndex < cs.chunks.length) :
    ∃ cs', attendSpots env es (fun _ => false) sorted index needed cs = .ok (cs', true) ∧ cs'.Dark := by
  induction needed generalizing index cs with
  | nil => exact ⟨cs, rfl, hd⟩
  | cons ns rest ih =>
    rw [List.length_cons] at hlength
    have hlt : index < sorted.length := by omega
    obtain ⟨moved, hm⟩ : ∃ moved, cs.moveAndRebuild env (es (2 * index + 1)) sorted[index].geoIndex ns = .ok moved := by
      apply moveAndRebuild_returns hb (hslots _ (List.getElem_mem hlt))
      intro placed hp
      obtain ⟨chunk, geo, -, -, rfl⟩ := place_spec hp
      exact ⟨_, generateChunk_barren env _ (by exact hd.barren) ns⟩
    have hpass := Registry.Pass.moved (registry_moveAndRebuild hm) (.nil _)
    have hchunks := hpass.length
    simp only [registry] at hchunks
    obtain ⟨cs', hrest, hd'⟩ : ∃ cs', ChunkSystem.attendSpots env es (fun _ => false) sorted (index + 1) rest moved =
        .ok (cs', true) ∧ cs'.Dark :=
      ih (hd.moveAndRebuild hm) (hpass.bijective hb) (by omega) (by rwa [hchunks])
    refine ⟨cs', ?_, hd'⟩
    unfold ChunkSystem.attendSpots
    simp only [Bool.false_eq_true, if_false, hd.user, hd.light, serveGenRequest, hd.gen, bind, Except.bind,
      List.getElem?_eq_getElem hlt, hm]
    exact hrest

/-- In the dark a pass with slots enough comes to its end. -/
theorem Dark.attendNeededSpots (hd : cs.Dark) (hb : cs.registry.Bijective)
    (henough : cs.missing userCpos ≤ cs.chunks.length) :
    ∃ cs', cs.attendNeededSpots env es (fun _ => false) userCpos userCPos = .ok (cs', true) ∧ cs'.Dark := by
  refine hd.attendSpots hb ?_ fun facade hf => ?_
  · rwa [Nat.zero_add, length_neededspots, sortedChunkFacades_eq, length_partitioned]
  · rw [sortedChunkFacades_eq] at hf
    obtain ⟨i, hi⟩ := List.mem_iff_getElem?.mp hf
    obtain ⟨j, hj, -⟩ := exists_rank hi
    rw [hb.index j facade hj]
    exact (List.getElem?_eq_some_iff.mp hj).1

theorem dark_new (radius : UInt8) (headless : Bool) : (new .plain radius 0 0 headless).Dark :=
  ⟨rfl, rfl, fun _ => rfl, rfl, rfl, rfl⟩

/-- The chunk at the corner of the square counts as far: in a small pool the camera is at
`(0, 0)` and then at `(1, 1)`, and the slot of the chunk `(0, 0)` is moved although the chunk
is needed. In the end no slot holds it. -/
theorem attendNeededSpots_evictsNeeded :
    ∃ first second, (new .plain 1 0 0 false).attendNeededSpots .plain (fun _ => .plain) (fun _ => false) ⟨0, 0⟩ ⟨0, 0⟩ =
        .ok (first, true) ∧
      first.attendNeededSpots .plain (fun _ => .plain) (fun _ => false) ⟨1, 1⟩ ⟨1, 1⟩ = .ok (second, true) ∧
      (⟨0, 0⟩ : IVec2) ∈ neededSquare first.radius ⟨1, 1⟩ ∧ (⟨0, 0⟩ : IVec2) ∈ first.takencare ∧
      (first.chunks[0]?).map ChunkFacade.pos = some ⟨0, 0⟩ ∧ (second.chunks[0]?).map ChunkFacade.pos ≠ some ⟨0, 0⟩ ∧
      (⟨0, 0⟩ : IVec2) ∉ second.takencare := by
  have hfresh : Walked .plain (new .plain 1 0 0 false) := .fresh 1 0 0 false none
  have hb := hfresh.bijective
  have hdefault : ∀ u : IVec2, u = ⟨0, 0⟩ ∨ u = ⟨1, 1⟩ → defaultPos ∉ neededSquare 1 u := by
    rintro u (rfl | rfl) <;> decide
  obtain ⟨first, hfirst, hdark⟩ : ∃ first, (new .plain 1 0 0 false).attendNeededSpots .plain (fun _ => .plain)
      (fun _ => false) ⟨0, 0⟩ ⟨0, 0⟩ = .ok (first, true) ∧ first.Dark :=
    (dark_new 1 false).attendNeededSpots hb (missing_le_slots hfresh (by decide) (by decide) _)
  have hwalked : Walked .plain first := .attended _ _ _ _ hfresh hfirst
  obtain ⟨hradius, -, hpass⟩ := pass_attendNeededSpots hfirst
  have hradius : first.radius = 1 := hradius
  have hslots : first.chunks ≠ [] := by
    have hlength := hpass.length
    simp only [registry] at hlength
    exact List.length_pos_iff.mp (by rw [hlength]; decide)
  obtain ⟨second, hsecond, -⟩ : ∃ second, first.attendNeededSpots .plain (fun _ => .plain) (fun _ => false) ⟨1, 1⟩ ⟨1, 1⟩ =
      .ok (second, true) ∧ second.Dark :=
    hdark.attendNeededSpots hwalked.bijective (missing_le_slots hwalked (by rw [hradius]; decide) hslots _)
  obtain ⟨hto, -⟩ := positions_attendNeededSpots hb (hdefault _ (.inl rfl)) hfirst
  have hzero : first.registry.posOf 0 = some ⟨0, 0⟩ := by
    have hhead : (neededspots (new .plain 1 0 0 false) ⟨0, 0⟩ ⟨0, 0⟩)[0]? = some ⟨0, 0⟩ :=
      neededspots_head (by decide) (Finmap.notMem_empty)
    refine hto (0, ⟨0, 0⟩) (List.mem_iff_getElem?.mpr ⟨0, List.getElem?_zip_eq_some.mpr ⟨?_, hhead⟩⟩)
    decide
  have hcorner : (⟨1, 1⟩ : IVec2) ∉ first.takencare := by
    intro hmem
    obtain ⟨f, hf⟩ := Finmap.mem_iff.mp hmem
    obtain ⟨-, d, hd, hdpos⟩ := hwalked.bijective.held _ f hf
    have hpos : first.registry.posOf f.geoIndex = some ⟨1, 1⟩ := by simp only [Registry.posOf, hd, Option.map_some, hdpos]
    rcases posOf_attendNeededSpots hb (hdefault _ (.inl rfl)) hfirst hpos with hpos | hneeded
    · obtain ⟨d', hd', hdpos'⟩ := Option.map_eq_some_iff.mp hpos
      obtain ⟨i, -, rfl⟩ := List.mem_map.mp (List.mem_of_getElem? hd')
      exact absurd hdpos' (show defaultPos ≠ ⟨1, 1⟩ by decide)
    · exact absurd hneeded (by decide)
  obtain ⟨c, hc, hcpos⟩ := Option.map_eq_some_iff.mp hzero
  have hmissing : 0 < first.missing ⟨1, 1⟩ := by
    rw [missing, List.countP_pos_iff, hradius]
    exact ⟨⟨1, 1⟩, by decide, by simpa using hcorner⟩
  have hdistant : unusedOrDistant first.radius ⟨1, 1⟩ c = true := by
    rw [unusedOrDistant, hradius, hcpos]
    cases c.used <;> rfl
  have hrank : rank (unusedOrDistant first.radius ⟨1, 1⟩) first.chunks 0 c < first.missing ⟨1, 1⟩ := by
    rwa [rank, if_pos hdistant, List.take_zero, List.countP_nil]
  obtain ⟨hmoved, hforgot⟩ := evicted hwalked.bijective (by rw [hradius]; exact hdefault _ (.inr rfl)) hsecond hc
    (by rw [hcpos]; decide) hrank
  rw [hcpos] at hmoved hforgot
  obtain ⟨f, hf, -⟩ := hwalked.bijective.registered 0 c hc (by rw [hcpos]; decide)
  refine ⟨first, second, hfirst, hsecond, by rw [hradius]; decide, Finmap.mem_iff.mpr ⟨f, ?_⟩, hzero, hmoved, hforgot⟩
  rw [← hcpos]
  exact hf

/-- The first pass of a fresh pool. -/
theorem attendNeededSpots_keeps_fresh : ∃ cs', (new .plain 1 0 0 false).attendNeededSpots .plain (fun _ => .plain)
    (fun _ => false) ⟨0, 0⟩ ⟨0, 0⟩ = .ok (cs', true) ∧ NeededKept (new .plain 1 0 0 false) cs' ⟨0, 0⟩ := by
  have hfresh : Walked .plain (new .plain 1 0 0 false) := .fresh 1 0 0 false none
  have henough := missing_le_slots hfresh (by decide) (by decide) ⟨0, 0⟩
  obtain ⟨cs', hpass, -⟩ : ∃ cs', (new .plain 1 0 0 false).attendNeededSpots .plain (fun _ => .plain) (fun _ => false)
      ⟨0, 0⟩ ⟨0, 0⟩ = .ok (cs', true) ∧ cs'.Dark := (dark_new 1 false).attendNeededSpots hfresh.bijective henough
  refine ⟨cs', hpass, (((attendNeededSpots_keeps_iff hfresh _ _ _ _).2 cs' hpass).1 ⟨henough, fun j c hc hneeded => ?_⟩).1⟩
  obtain ⟨i, -, rfl⟩ := List.mem_map.mp (List.mem_of_getElem? hc)
  exact absurd hneeded (show defaultPos ∉ neededSquare 1 ⟨0, 0⟩ by decide)

end ChunkSystem

end Distgard
