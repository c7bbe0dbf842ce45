import Distgard.Streaming
import Mathlib.Data.Int.Interval
import Mathlib.Data.Finset.Prod
import Mathlib.Algebra.Order.Ring.Abs
import Mathlib.Tactic.IntervalCases
import Mathlib.Tactic.Ring

/-!
# Standing still

While the player stands still, pass after pass looks for the chunks of the square around the
camera that no slot holds. A pass is cut short when something else is asked for, so one pass
may do no more than one move. The chunk at one corner of the square counts as far: a slot that
holds it may be moved to another chunk, and the corner is then to be fetched again.

What decides is how many slots there are. A pass moves far slots first, and comes to slots
with near chunks when the far ones run out. It then takes a chunk that is needed from one slot
to fetch another, and the next pass has it to fetch again.

## The model

`Stays` are the runs in which the camera is in one chunk: passes, cut short or not, and rebuilds
and other changes in between. It counts the passes that are `Quiet` at their start, so that
they are not cut short before their first move. The two ways in which the source computes the
chunk of the camera are taken to agree.

## What is proved

* `Roomy` — there are more slots than near chunks that are held or needed. Each pass leaves
  this number alone (`Roomy.pass`), since it moves far slots only.
* `standing_settles` — where there is room, near chunks that are needed stay, and after one more
  quiet pass than chunks are missing everything that is needed is registered.
* `card_le_of_near`, `standing_settles_small` — up to a radius of `6` there is room wherever the
  player comes to stand.
-/

namespace Distgard

open Lib

namespace ChunkSystem

variable {env : Externals} {es : ℕ → Entropy} {busy : ℕ → Bool} {cs cs' : ChunkSystem} {radius : UInt8} {u p : IVec2}

/-! ### Near and far -/

/-- The chunk is far from the camera. -/
def Far (radius : UInt8) (u p : IVec2) : Prop := radius.toNat * 2 ≤ (p.x - u.x).natAbs + (p.y - u.y).natAbs

instance : Decidable (Far radius u p) := inferInstanceAs (Decidable (_ ≤ _))

/-- The corner of the square that is far. -/
def corner (radius : UInt8) (u : IVec2) : IVec2 := ⟨u.x - radius.toNat, u.y - radius.toNat⟩

/-- What is needed and far is the corner. -/
theorem eq_corner (h : p ∈ neededSquare radius u) (hfar : Far radius u p) : p = corner radius u := by
  obtain ⟨⟨hx, hx'⟩, hy, hy'⟩ := mem_neededSquare.mp h
  unfold Far at hfar
  ext
  · simp only [corner]
    omega
  · simp only [corner]
    omega

/-- The corner is farther away than any other chunk that is needed. -/
theorem dist_lt_corner (h : p ∈ neededSquare radius u) (hne : p ≠ corner radius u) :
    dist p u < dist (corner radius u) u := by
  obtain ⟨⟨hx, hx'⟩, hy, hy'⟩ := mem_neededSquare.mp h
  have hcorner : dist (corner radius u) u = (radius.toNat : ℤ) ^ 2 + (radius.toNat : ℤ) ^ 2 := by
    simp only [dist, corner]
    ring
  have hle : ∀ d : ℤ, -(radius.toNat : ℤ) ≤ d → d < radius.toNat → d ^ 2 ≤ (radius.toNat : ℤ) ^ 2 :=
    fun d hd hd' => sq_le_sq' hd hd'.le
  have hlt : ∀ d : ℤ, -(radius.toNat : ℤ) < d → d < radius.toNat → d ^ 2 < (radius.toNat : ℤ) ^ 2 :=
    fun d hd hd' => sq_lt_sq' hd hd'
  rw [hcorner, dist]
  by_cases hpx : p.x = u.x - radius.toNat
  · have hpy : p.y ≠ u.y - radius.toNat := fun hpy => hne (IVec2.ext hpx hpy)
    exact add_lt_add_of_le_of_lt (hle _ (by omega) (by omega)) (hlt _ (by omega) (by omega))
  · exact add_lt_add_of_lt_of_le (hlt _ (by omega) (by omega)) (hle _ (by omega) (by omega))

/-- The corner comes last: while it is the first of the missing chunks, no other is missing. -/
theorem eq_corner_of_head {rest : List IVec2} (h : cs.neededspots u u = corner cs.radius u :: rest)
    (hp : p ∈ neededSquare cs.radius u) (hmissing : p ∉ cs.takencare) : p = corner cs.radius u := by
  have hmem : p ∈ cs.neededspots u u := mem_neededspots.mpr ⟨hp, hmissing⟩
  have hsorted : (cs.neededspots u u).Pairwise fun a b => decide (dist a u ≤ dist b u) = true := by
    refine List.pairwise_mergeSort (fun a b c hab hbc => ?_) (fun a b => ?_) _
    · simp only [decide_eq_true_iff] at hab hbc ⊢
      omega
    · simp only [Bool.or_eq_true, decide_eq_true_iff]
      omega
  rw [h] at hmem hsorted
  by_contra hne
  have hle := (List.pairwise_cons.mp hsorted).1 p ((List.mem_cons.mp hmem).resolve_left hne)
  rw [decide_eq_true_iff] at hle
  have hlt := dist_lt_corner hp hne
  omega

/-- How many chunks are near. -/
theorem card_le_of_near (s : Finset IVec2) (h : ∀ p ∈ s, ¬ Far radius u p) :
    s.card ≤ (2 * radius.toNat - 1) * (2 * radius.toNat - 1) + (2 * radius.toNat) * (2 * radius.toNat) := by
  -- turned by an eighth, the near chunks are the points of two squares
  have hsub : s ⊆
      ((Finset.Ioo (-radius.toNat : ℤ) radius.toNat ×ˢ Finset.Ioo (-radius.toNat : ℤ) radius.toNat).image
        fun ab => (⟨u.x + (ab.1 + ab.2), u.y + (ab.1 - ab.2)⟩ : IVec2)) ∪
      ((Finset.Ico (-radius.toNat : ℤ) radius.toNat ×ˢ Finset.Ico (-radius.toNat : ℤ) radius.toNat).image
        fun ab => (⟨u.x + (ab.1 + ab.2 + 1), u.y + (ab.1 - ab.2)⟩ : IVec2)) := by
    intro p hp
    have hnear := h p hp
    unfold Far at hnear
    simp only [Finset.mem_union, Finset.mem_image, Finset.mem_product, Finset.mem_Ioo, Finset.mem_Ico, Prod.exists]
    rcases Int.emod_two_eq_zero_or_one (p.x - u.x + (p.y - u.y)) with heven | hodd
    · refine .inl ⟨(p.x - u.x + (p.y - u.y)) / 2, (p.x - u.x - (p.y - u.y)) / 2, by omega, ?_⟩
      ext
      · simp only
        omega
      · simp only
        omega
    · refine .inr ⟨(p.x - u.x + (p.y - u.y)) / 2, (p.x - u.x - (p.y - u.y)) / 2, by omega, ?_⟩
      ext
      · simp only
        omega
      · simp only
        omega
  refine (Finset.card_le_card hsub).trans ((Finset.card_union_le _ _).trans (add_le_add ?_ ?_))
  · refine Finset.card_image_le.trans (le_of_eq ?_)
    rw [Finset.card_product, Int.card_Ioo]
    congr 1 <;> omega
  · refine Finset.card_image_le.trans (le_of_eq ?_)
    rw [Finset.card_product, Int.card_Ico]
    congr 1 <;> omega

/-! ### Room -/

/-- The needed chunks that are near. -/
def wanted (radius : UInt8) (u : IVec2) : Finset IVec2 := (neededSquare radius u).toFinset.filter fun p => ¬ Far radius u p

/-- The near chunks that are registered. -/
def near (cs : ChunkSystem) (u : IVec2) : Finset IVec2 := cs.takencare.keys.filter fun p => ¬ Far cs.radius u p

/-- There are more slots than near chunks that are held or needed. -/
def Roomy (cs : ChunkSystem) (u : IVec2) : Prop := (wanted cs.radius u ∪ cs.near u).card < cs.chunks.length

/-- The camera is far from the place that slots have before they hold a chunk. -/
def Away (radius : UInt8) (u : IVec2) : Prop :=
  radius.toNat * 2 < (defaultPos.x - u.x).natAbs + (defaultPos.y - u.y).natAbs

instance : Decidable (Away radius u) := inferInstanceAs (Decidable (_ < _))

@[simp] theorem mem_wanted : p ∈ wanted radius u ↔ p ∈ neededSquare radius u ∧ ¬ Far radius u p := by
  simp [wanted]

@[simp] theorem mem_near : p ∈ cs.near u ↔ p ∈ cs.takencare ∧ ¬ Far cs.radius u p := by
  simp [near, Finmap.mem_keys]

theorem Away.far (h : Away radius u) : Far radius u defaultPos := Nat.le_of_lt h

theorem Away.not_needed (h : Away radius u) : defaultPos ∉ neededSquare radius u := by
  intro hmem
  obtain ⟨⟨hx, hx'⟩, hy, hy'⟩ := mem_neededSquare.mp hmem
  unfold Away at h
  omega

theorem Away.ne_default (h : Away radius u) (hp : ¬ Far radius u p) : p ≠ defaultPos := by
  rintro rfl
  exact hp h.far

theorem unusedOrDistant_iff {chunk : ChunkFacade} :
    unusedOrDistant radius u chunk = true ↔ chunk.used = false ∨ Far radius u chunk.pos := by
  cases hused : chunk.used with
  | true => simp [unusedOrDistant, hused, Far]
  | false => simp [unusedOrDistant, hused]

/-- Slots that are not to be moved first hold near chunks, each another one. -/
theorem slots_le (hb : cs.registry.Bijective) (haway : Away cs.radius u) :
    cs.chunks.length ≤ cs.chunks.countP (unusedOrDistant cs.radius u) + (cs.near u).card := by
  have hclose : ∀ c ∈ cs.chunks.filter fun c => !unusedOrDistant cs.radius u c, c ∈ cs.chunks ∧ ¬ Far cs.radius u c.pos := by
    intro c hc
    obtain ⟨hmem, hclose⟩ := List.mem_filter.mp hc
    rw [Bool.not_eq_true', ← Bool.not_eq_true, unusedOrDistant_iff, not_or] at hclose
    exact ⟨hmem, hclose.2⟩
  have hpairwise : cs.chunks.Pairwise fun c d => ¬ Far cs.radius u c.pos → c.pos ≠ d.pos := by
    refine List.pairwise_iff_getElem.mpr fun i j hi hj hlt hnear hpos => ?_
    have hij := hb.unique (List.getElem?_eq_getElem hi) (List.getElem?_eq_getElem hj) hpos (haway.ne_default hnear)
    omega
  have hnodup : ((cs.chunks.filter fun c => !unusedOrDistant cs.radius u c).map ChunkFacade.pos).Nodup := by
    refine List.pairwise_map.mpr ((hpairwise.filter _).imp_of_mem fun {c d} hc _ hcd => hcd (hclose c hc).2)
  have hsub : ((cs.chunks.filter fun c => !unusedOrDistant cs.radius u c).map ChunkFacade.pos).toFinset ⊆ cs.near u := by
    intro p hp
    obtain ⟨c, hc, rfl⟩ := List.mem_map.mp (List.mem_toFinset.mp hp)
    obtain ⟨hmem, hnear⟩ := hclose c hc
    obtain ⟨i, hi⟩ := List.mem_iff_getElem?.mp hmem
    obtain ⟨f, hf, -⟩ := hb.registered i c hi (haway.ne_default hnear)
    exact mem_near.mpr ⟨Finmap.mem_iff.mpr ⟨f, hf⟩, hnear⟩
  have hcard := Finset.card_le_card hsub
  rw [List.toFinset_card_of_nodup hnodup, List.length_map, ← List.countP_eq_length_filter] at hcard
  rw [List.length_eq_countP_add_countP (unusedOrDistant cs.radius u)]
  simpa using hcard

/-- Of the missing chunks all but one are near. -/
theorem missing_le (cs : ChunkSystem) (u : IVec2) : cs.missing u ≤ (wanted cs.radius u \ cs.near u).card + 1 := by
  have hsub : ((neededSquare cs.radius u).filter (· ∉ cs.takencare)).toFinset ⊆
      insert (corner cs.radius u) (wanted cs.radius u \ cs.near u) := by
    intro p hp
    obtain ⟨hneeded, hmissing⟩ := List.mem_filter.mp (List.mem_toFinset.mp hp)
    rw [decide_eq_true_iff] at hmissing
    by_cases hfar : Far cs.radius u p
    · exact Finset.mem_insert.mpr (.inl (eq_corner hneeded hfar))
    · exact Finset.mem_insert_of_mem (by simp [hneeded, hfar, hmissing])
  have hcard := (Finset.card_le_card hsub).trans (Finset.card_insert_le _ _)
  rwa [List.toFinset_card_of_nodup ((nodup_neededSquare _ _).filter _), ← List.countP_eq_length_filter] at hcard

/-- Where there is room, there are far slots for all that is missing. -/
theorem Roomy.missing_le_spare (h : cs.Roomy u) (hb : cs.registry.Bijective) (haway : Away cs.radius u) :
    cs.missing u ≤ cs.chunks.countP (unusedOrDistant cs.radius u) := by
  have hslots := slots_le hb haway
  have hmissing := missing_le cs u
  have hunion := Finset.card_sdiff_add_card (wanted cs.radius u) (cs.near u)
  unfold Roomy at h
  omega

end ChunkSystem

/-! ### Slots that were never rebuilt -/

namespace Registry

variable {r r' : Registry} {index : ℕ} {cpos : IVec2} {moves : List (ℕ × IVec2)}

/-- A slot that was never rebuilt holds no chunk. -/
def UnusedEmpty (r : Registry) : Prop :=
  ∀ (i : ℕ) (c : ChunkFacade), r.chunks[i]? = some c → c.used = false → c.pos = defaultPos

theorem UnusedEmpty.set (h : r.UnusedEmpty) {chunks : List ChunkFacade} {chunk chunk' : ChunkFacade}
    (hchunk : r.chunks[index]? = some chunk) (hused : chunk'.used = true) (hchunks : chunks = r.chunks.set index chunk')
    {i : ℕ} {c : ChunkFacade} (hc : chunks[i]? = some c) (hunused : c.used = false) : c.pos = defaultPos := by
  rw [hchunks, getElem?_set_of_some hchunk] at hc
  split at hc
  · cases hc
    rw [hused] at hunused
    cases hunused
  · exact h i c hc hunused

theorem UnusedEmpty.rebuild (h : r.UnusedEmpty) (hr : r.rebuild index = some r') : r'.UnusedEmpty := by
  obtain ⟨chunk, hchunk, rfl⟩ := rebuild_cases hr
  exact fun i c hc hunused => h.set hchunk rfl rfl hc hunused

theorem UnusedEmpty.move (h : r.UnusedEmpty) (hm : r.move index cpos = some r') : r'.UnusedEmpty := by
  rcases move_cases hm with ⟨cf, -, hr⟩ | ⟨-, chunk, pos, hchunk, -, rfl⟩
  · exact h.rebuild hr
  · exact fun i c hc hunused => h.set hchunk rfl rfl hc hunused

theorem Pass.unusedEmpty (hp : Pass r moves r') (h : r.UnusedEmpty) : r'.UnusedEmpty := by
  induction hp with
  | nil => exact h
  | rebuilt index hr _ ih => exact ih (h.rebuild hr)
  | moved hm _ ih => exact ih (h.move hm)

end Registry

namespace ChunkSystem

variable {env : Externals} {es : ℕ → Entropy} {busy : ℕ → Bool} {cs cs' : ChunkSystem} {radius : UInt8} {u p : IVec2}

theorem Walked.unusedEmpty (h : Walked env cs) : cs.registry.UnusedEmpty := by
  induction h with
  | fresh radius seed noisetype headless models =>
    intro i c hc _
    cases headless with
    | true => simp [registry, new] at hc
    | false =>
      simp only [registry, new, freshChunks] at hc
      obtain ⟨k, -, rfl⟩ := List.mem_map.mp (List.mem_of_getElem? hc)
      rfl
  | attended es busy userCpos userCPos _ hpass ih =>
    obtain ⟨-, moves, hpass, -⟩ := pass_attendSpots hpass
    exact hpass.unusedEmpty ih
  | rebuilt e index userPower light _ hr ih => exact ih.rebuild (registry_rebuildIndex hr)
  | changed _ hregistry _ ih => exact hregistry ▸ ih

/-! ### One pass -/

/-- Nothing cuts a pass short before the turn numbered `index`. -/
structure Quiet (busy : ℕ → Bool) (index : ℕ) (cs : ChunkSystem) : Prop where
  /-- No automata changes are queued. -/
  automata : busy index = false
  /-- No rebuild for the user is asked for. -/
  user : cs.userRebuildRequests = []
  /-- No light rebuild is asked for. -/
  light : cs.lightRebuildRequests = []

instance (busy : ℕ → Bool) (index : ℕ) (cs : ChunkSystem) : Decidable (Quiet busy index cs) :=
  decidable_of_iff (busy index = false ∧ cs.userRebuildRequests = [] ∧ cs.lightRebuildRequests = [])
    ⟨fun ⟨h, h', h''⟩ => ⟨h, h', h''⟩, fun ⟨h, h', h''⟩ => ⟨h, h', h''⟩⟩

/-- A turn that nothing cuts short moves a slot. -/
theorem attendSpots_cons_of_quiet {sorted : List ChunkFacade} {index : ℕ} {ns : IVec2} {rest : List IVec2} {finished : Bool}
    (hq : Quiet busy index cs) (h : attendSpots env es busy sorted index (ns :: rest) cs = .ok (cs', finished)) :
    ∃ served moved facade, cs.serveGenRequest env (es (2 * index)) = .ok served ∧ sorted[index]? = some facade ∧
      served.moveAndRebuild env (es (2 * index + 1)) facade.geoIndex ns = .ok moved ∧
      attendSpots env es busy sorted (index + 1) rest moved = .ok (cs', finished) := by
  unfold attendSpots at h
  simp only [hq.automata, Bool.false_eq_true, if_false, hq.user, hq.light, bind, Except.bind] at h
  cases hs : cs.serveGenRequest env (es (2 * index)) with
  | error p => rw [hs] at h; cases h
  | ok served =>
    rw [hs] at h
    cases hf : sorted[index]? with
    | none => rw [hf] at h; cases h
    | some facade =>
      rw [hf] at h
      simp only at h
      cases hm : served.moveAndRebuild env (es (2 * index + 1)) facade.geoIndex ns with
      | error p => rw [hm] at h; cases h
      | ok moved =>
        rw [hm] at h
        exact ⟨served, moved, facade, rfl, rfl, hm, h⟩

/-- **A pass that may be cut short** makes the first of the moves it planned, and one at least if
something is missing and nothing cuts it short before. -/
theorem prefix_attendSpots {sorted : List ChunkFacade} {index : ℕ} {needed : List IVec2} {finished : Bool}
    (h : attendSpots env es busy sorted index needed cs = .ok (cs', finished)) : cs'.radius = cs.radius ∧
    ∃ moves, Registry.Pass cs.registry moves cs'.registry ∧ moves <+: plannedMoves (sorted.drop index) needed ∧
      (Quiet busy index cs → needed ≠ [] → moves ≠ []) := by
  induction needed generalizing index cs with
  | nil =>
    cases h
    exact ⟨rfl, [], .nil _, List.nil_prefix, fun _ hne => absurd rfl hne⟩
  | cons ns rest ih =>
    by_cases hq : Quiet busy index cs ∨ ∃ served moved facade, cs.serveGenRequest env (es (2 * index)) = .ok served ∧
        sorted[index]? = some facade ∧ served.moveAndRebuild env (es (2 * index + 1)) facade.geoIndex ns = .ok moved ∧
        attendSpots env es busy sorted (index + 1) rest moved = .ok (cs', finished)
    · obtain ⟨served, moved, facade, hs, hf, hm, hrest⟩ := hq.elim (attendSpots_cons_of_quiet · h) id
      obtain ⟨hradius, hserve⟩ := registry_serveGenRequest hs
      obtain ⟨hradius', moves, hpass, hprefix, -⟩ := ih hrest
      have hdrop : sorted.drop index = facade :: sorted.drop (index + 1) := by
        obtain ⟨hlt, rfl⟩ := List.getElem?_eq_some_iff.mp hf
        exact List.drop_eq_getElem_cons hlt
      refine ⟨hradius'.trans ((radius_moveAndRebuild hm).trans hradius), (facade.geoIndex, ns) :: moves, ?_, ?_,
        fun _ _ => List.cons_ne_nil _ _⟩
      · rcases hserve with hr | ⟨i, hr⟩
        · exact hr ▸ .moved (registry_moveAndRebuild hm) hpass
        · exact .rebuilt i hr (.moved (registry_moveAndRebuild hm) hpass)
      · rw [hdrop, plannedMoves, List.map_cons, List.zip_cons_cons]
        exact List.cons_prefix_cons.mpr ⟨rfl, hprefix⟩
    · rw [not_or] at hq
      rcases attendSpots_cons h with ⟨-, hradius, hr⟩ | hgoes
      · refine ⟨hradius, [], ?_, List.nil_prefix, fun hquiet _ => absurd hquiet hq.1⟩
        rcases hr with hr | ⟨i, hr⟩
        · exact hr ▸ .nil _
        · exact .rebuilt i hr (.nil _)
      · exact absurd hgoes hq.2

/-! ### What is fetched -/

/-- All that is needed is registered. -/
def AllHeld (cs : ChunkSystem) (u : IVec2) : Prop := ∀ p ∈ neededSquare cs.radius u, p ∈ cs.takencare

/-- The chunks of a list have been fetched, and near ones have stayed. -/
structure Fetched (cs cs' : ChunkSystem) (u : IVec2) (fetched : List IVec2) : Prop where
  /-- The radius is the same. -/
  radius : cs'.radius = cs.radius
  /-- So is the number of slots. -/
  length : cs'.chunks.length = cs.chunks.length
  /-- Slots with near chunks stay. -/
  stays : ∀ j p, cs.registry.posOf j = some p → ¬ Far cs.radius u p → cs'.registry.posOf j = some p
  /-- The near chunks that are registered in the end. -/
  held : ∀ p, ¬ Far cs.radius u p → (p ∈ cs'.takencare ↔ p ∈ cs.takencare ∨ p ∈ fetched)
  /-- What is fetched is needed. -/
  needed : ∀ p ∈ fetched, p ∈ neededSquare cs.radius u
  /-- Nothing is lost once everything is there. -/
  settled : cs.AllHeld u → cs'.AllHeld u

/-- A rebuild fetches nothing. -/
theorem fetched_rebuild {index : ℕ} (hb : cs.registry.Bijective) (haway : Away cs.radius u)
    (hradius : cs'.radius = cs.radius) (hr : cs.registry.rebuild index = some cs'.registry) : Fetched cs cs' u [] := by
  obtain ⟨hslots, hmem⟩ := Registry.rebuild_effect hr
  have hlength := (Registry.Pass.rebuilt index hr (.nil _)).length
  refine ⟨hradius, hlength, fun j p hj _ => by rw [hslots, hj], fun p hnear => ?_, fun p hp => absurd hp List.not_mem_nil, ?_⟩
  · rw [or_iff_left List.not_mem_nil]
    refine (hmem p).trans (or_iff_left_of_imp fun hpos => ?_)
    obtain ⟨c, hc, rfl⟩ := Option.map_eq_some_iff.mp hpos
    obtain ⟨f, hf, -⟩ := hb.registered index c hc (haway.ne_default hnear)
    exact Finmap.mem_iff.mpr ⟨f, hf⟩
  · intro hall p hp
    exact (hmem p).mpr (.inl (hall p (hradius ▸ hp)))

/-- Nor does what the registry does not know of. -/
theorem fetched_changed (hradius : cs'.radius = cs.radius) (hregistry : cs'.registry = cs.registry) :
    Fetched cs cs' u [] := by
  have hchunks : cs'.chunks = cs.chunks := congrArg Registry.chunks hregistry
  have htaken : cs'.takencare = cs.takencare := congrArg Registry.takencare hregistry
  refine ⟨hradius, by rw [hchunks], fun j p hj _ => by rw [hregistry, hj], fun p _ => ?_,
    fun p hp => absurd hp List.not_mem_nil, ?_⟩
  · rw [htaken, or_iff_left List.not_mem_nil]
  · intro hall p hp
    rw [htaken]
    exact hall p (hradius ▸ hp)

/-- A slot that a pass moves holds a far chunk. -/
theorem far_of_planned (h : Walked env cs) (haway : Away cs.radius u) (hroomy : cs.Roomy u) {m : ℕ × IVec2}
    (hm : m ∈ plannedMoves (cs.sortedChunkFacades u) (cs.neededspots u u)) (hpos : cs.registry.posOf m.1 = some p) :
    Far cs.radius u p := by
  obtain ⟨c, hc, hrank, -⟩ := mem_plannedMoves h.bijective hm
  obtain ⟨c', hc', rfl⟩ := Option.map_eq_some_iff.mp hpos
  obtain rfl : c = c' := Option.some.inj (hc.symm.trans hc')
  -- the slots that are not moved first come after all of the others, which are enough
  have hfirst : unusedOrDistant cs.radius u c = true := by
    by_contra hclose
    have henough := hroomy.missing_le_spare h.bijective haway
    rw [rank, if_neg hclose] at hrank
    omega
  rcases unusedOrDistant_iff.mp hfirst with hunused | hfar
  · rw [h.unusedEmpty m.1 c hc hunused]
    exact haway.far
  · exact hfar

/-- **A pass fetches** the first of the missing chunks, and one at least if nothing cuts it short. -/
theorem exists_fetched {finished : Bool} (h : Walked env cs) (haway : Away cs.radius u) (hroomy : cs.Roomy u)
    (hpass : cs.attendNeededSpots env es busy u u = .ok (cs', finished)) :
    ∃ fetched, Fetched cs cs' u fetched ∧ fetched <+: cs.neededspots u u ∧ (∀ p ∈ fetched, p ∈ cs'.takencare) ∧
      (Quiet busy 0 cs → cs.neededspots u u ≠ [] → fetched ≠ []) := by
  have hb := h.bijective
  obtain ⟨hradius, moves, hp, hprefix, hfirst⟩ := prefix_attendSpots hpass
  rw [List.drop_zero] at hprefix
  have hb' := hp.bijective hb
  have hplanned : ∀ m ∈ moves, m ∈ plannedMoves (cs.sortedChunkFacades u) (cs.neededspots u u) := fun m hm =>
    hprefix.subset hm
  obtain ⟨hfst, hsnd⟩ : ((plannedMoves (cs.sortedChunkFacades u) (cs.neededspots u u)).map Prod.fst).Nodup ∧
    ((plannedMoves (cs.sortedChunkFacades u) (cs.neededspots u u)).map Prod.snd).Nodup := nodup_plannedMoves hb
  have hsublist := hprefix.sublist
  replace hfst := hfst.sublist (hsublist.map Prod.fst)
  replace hsnd := hsnd.sublist (hsublist.map Prod.snd)
  have hnew : ∀ m ∈ moves, m.2 ∉ cs.takencare ∧ m.2 ≠ defaultPos := fun m hm =>
    plannedMoves_new hb haway.not_needed (hplanned m hm)
  obtain ⟨hto, hstay⟩ := hp.positions hb hfst hsnd hnew
  have hfar : ∀ m ∈ moves, ∀ p, cs.registry.posOf m.1 = some p → p ∉ {p | ¬ Far cs.radius u p} :=
    fun m hm p hpos hnear => hnear (far_of_planned h haway hroomy (hplanned m hm) hpos)
  obtain ⟨hstays, hkept⟩ := hp.keeps hb hfst hfar
  have hfetched : moves.map Prod.snd <+: cs.neededspots u u := by
    have hlength : (cs.neededspots u u).length ≤ ((cs.sortedChunkFacades u).map ChunkFacade.geoIndex).length := by
      rw [length_neededspots, List.length_map, sortedChunkFacades_eq, length_partitioned]
      exact (hroomy.missing_le_spare hb haway).trans List.countP_le_length
    have hmap := hprefix.map Prod.snd
    rwa [plannedMoves, List.map_snd_zip hlength] at hmap
  refine ⟨moves.map Prod.snd, ⟨hradius, hp.length, hstays, fun p hnear => ⟨fun hmem => ?_, hkept p hnear⟩,
    fun p hmem => (mem_neededspots.mp (hfetched.subset hmem)).1, fun hall => ?_⟩, hfetched, fun p hmem => ?_,
    fun hq hne hnil => hfirst hq hne (List.map_eq_nil_iff.mp hnil)⟩
  · -- who holds the chunk in the end has come to hold it, or has held it before
    obtain ⟨f, hf⟩ := Finmap.mem_iff.mp hmem
    obtain ⟨-, d, hd, hdpos⟩ := hb'.held p f hf
    have hposd : cs'.registry.posOf f.geoIndex = some p := by simp only [Registry.posOf, hd, Option.map_some, hdpos]
    by_cases hm : f.geoIndex ∈ moves.map Prod.fst
    · obtain ⟨m, hm, hslot⟩ := List.mem_map.mp hm
      have hm2 := hto m hm
      rw [hslot, hposd, Option.some.injEq] at hm2
      exact .inr (List.mem_map.mpr ⟨m, hm, hm2.symm⟩)
    · rw [hstay _ hm] at hposd
      obtain ⟨c, hc, rfl⟩ := Option.map_eq_some_iff.mp hposd
      obtain ⟨g, hg, -⟩ := hb.registered _ c hc (haway.ne_default hnear)
      exact .inl (Finmap.mem_iff.mpr ⟨g, hg⟩)
  · rw [attendNeededSpots_of_held hall] at hpass
    cases hpass
    exact hall
  · obtain ⟨m, hm, rfl⟩ := List.mem_map.mp hmem
    obtain ⟨c, hc, hpos⟩ := Option.map_eq_some_iff.mp (hto m hm)
    obtain ⟨f, hf, -⟩ := hb'.registered m.1 c hc (hpos ▸ (hnew m hm).2)
    exact Finmap.mem_iff.mpr ⟨f, hpos ▸ hf⟩

/-! ### How much is to be done -/

/-- The near chunks that are missing, and one more while anything is. -/
def unsettled (cs : ChunkSystem) (u : IVec2) : ℕ := (wanted cs.radius u \ cs.near u).card + min 1 (cs.missing u)

theorem missing_eq_zero_iff : cs.missing u = 0 ↔ cs.AllHeld u := by
  rw [missing, List.countP_eq_zero]
  simp [AllHeld]

theorem unsettled_le (cs : ChunkSystem) (u : IVec2) : cs.unsettled u ≤ cs.missing u + 1 := by
  have hsub : wanted cs.radius u \ cs.near u ⊆ ((neededSquare cs.radius u).filter (· ∉ cs.takencare)).toFinset := by
    intro p hp
    simp only [Finset.mem_sdiff, mem_wanted, mem_near, not_and, not_not] at hp
    simp only [List.mem_toFinset, List.mem_filter, decide_eq_true_iff]
    exact ⟨hp.1.1, fun hmem => hp.1.2 (hp.2 hmem)⟩
  have hcard := (Finset.card_le_card hsub).trans (List.toFinset_card_le _)
  rw [← List.countP_eq_length_filter] at hcard
  rw [unsettled]
  exact add_le_add hcard (min_le_left _ _)

theorem Fetched.mem_near_iff {fetched : List IVec2} (h : Fetched cs cs' u fetched) :
    p ∈ cs'.near u ↔ p ∈ cs.near u ∨ p ∈ fetched ∧ ¬ Far cs.radius u p := by
  rw [mem_near, mem_near, h.radius]
  by_cases hfar : Far cs.radius u p
  · simp [hfar]
  · simp [hfar, h.held p hfar]

/-- Room stays room. -/
theorem Fetched.roomy {fetched : List IVec2} (h : Fetched cs cs' u fetched) (hroomy : cs.Roomy u) : cs'.Roomy u := by
  have hunion : wanted cs'.radius u ∪ cs'.near u = wanted cs.radius u ∪ cs.near u := by
    ext p
    rw [Finset.mem_union, Finset.mem_union, h.mem_near_iff, h.radius, mem_wanted]
    refine ⟨?_, ?_⟩
    · rintro (hw | hn | ⟨hf, hnear⟩)
      · exact .inl hw
      · exact .inr hn
      · exact .inl ⟨h.needed p hf, hnear⟩
    · exact Or.imp_right .inl
  unfold Roomy
  rw [hunion, h.length]
  exact hroomy

theorem Fetched.sdiff_subset {fetched : List IVec2} (h : Fetched cs cs' u fetched) :
    wanted cs'.radius u \ cs'.near u ⊆ wanted cs.radius u \ cs.near u := by
  rw [h.radius]
  exact Finset.sdiff_subset_sdiff subset_rfl fun p hp => h.mem_near_iff.mpr (.inl hp)

/-- There never is more to be done. -/
theorem Fetched.unsettled_le {fetched : List IVec2} (h : Fetched cs cs' u fetched) : cs'.unsettled u ≤ cs.unsettled u := by
  have hcard := Finset.card_le_card h.sdiff_subset
  have hmissing : cs.missing u = 0 → cs'.missing u = 0 := fun h0 =>
    missing_eq_zero_iff.mpr (h.settled (missing_eq_zero_iff.mp h0))
  unfold unsettled
  omega

/-- **A pass that is not cut short** leaves less to be done. -/
theorem unsettled_lt {finished : Bool} (h : Walked env cs) (haway : Away cs.radius u) (hroomy : cs.Roomy u)
    (hpass : cs.attendNeededSpots env es busy u u = .ok (cs', finished)) (hq : Quiet busy 0 cs) :
    cs'.unsettled u ≤ cs.unsettled u - 1 := by
  obtain ⟨fetched, hf, hprefix, hheld, hfirst⟩ := exists_fetched h haway hroomy hpass
  have hle := Finset.card_le_card hf.sdiff_subset
  cases hneeded : cs.neededspots u u with
  | nil =>
    have hmissing : cs.missing u = 0 := by rw [← length_neededspots cs u u, hneeded, List.length_nil]
    have hmissing' := missing_eq_zero_iff.mpr (hf.settled (missing_eq_zero_iff.mp hmissing))
    have hnone : wanted cs.radius u \ cs.near u = ∅ := by
      refine Finset.eq_empty_of_forall_notMem fun p hp => ?_
      simp only [Finset.mem_sdiff, mem_wanted, mem_near, not_and, not_not] at hp
      exact hp.1.2 (hp.2 (missing_eq_zero_iff.mp hmissing p hp.1.1))
    rw [hnone, Finset.card_empty] at hle
    unfold unsettled
    omega
  | cons ns rest =>
    have hns : ns ∈ fetched := by
      rw [hneeded] at hprefix hfirst
      obtain ⟨b, l, rfl⟩ := List.exists_cons_of_ne_nil (hfirst hq (List.cons_ne_nil _ _))
      rw [(List.cons_prefix_cons.mp hprefix).1]
      exact List.mem_cons_self
    obtain ⟨hsquare, hmissing⟩ : ns ∈ neededSquare cs.radius u ∧ ns ∉ cs.takencare :=
      mem_neededspots.mp (by rw [hneeded]; exact List.mem_cons_self)
    have hpos : cs.missing u ≠ 0 := fun h0 => hmissing (missing_eq_zero_iff.mp h0 ns hsquare)
    by_cases hfar : Far cs.radius u ns
    · -- the corner is fetched, and nothing else was missing
      obtain rfl := eq_corner hsquare hfar
      have hall : cs'.AllHeld u := by
        intro p hp
        rw [hf.radius] at hp
        by_cases hpc : p = corner cs.radius u
        · exact hpc ▸ hheld _ hns
        · have hreg : p ∈ cs.takencare := by
            by_contra hnot
            exact hpc (eq_corner_of_head hneeded hp hnot)
          exact (hf.held p fun hpfar => hpc (eq_corner hp hpfar)).mpr (.inl hreg)
      have hmissing' := missing_eq_zero_iff.mpr hall
      unfold unsettled
      omega
    · have hlt : (wanted cs'.radius u \ cs'.near u).card < (wanted cs.radius u \ cs.near u).card := by
        refine Finset.card_lt_card ⟨hf.sdiff_subset, fun hsub => ?_⟩
        have hold : ns ∈ wanted cs.radius u \ cs.near u := by simp [hsquare, hfar, hmissing]
        exact (Finset.mem_sdiff.mp (hsub hold)).2 (hf.mem_near_iff.mpr (.inr ⟨hns, hfar⟩))
      unfold unsettled
      omega

/-! ### Room in small worlds -/

/-- **Up to a radius of `6` there is room**, wherever the camera is. -/
theorem roomy_of_radius_le (h : Walked env cs) (hradius : cs.radius ≤ 6) (hslots : cs.chunks ≠ []) (u : IVec2) :
    cs.Roomy u := by
  have hle : cs.radius.toNat ≤ 6 := hradius
  have hside : side cs.radius = 2 * cs.radius.toNat + 5 := by
    rw [side, UInt8.toNat_add, UInt8.toNat_mul]
    simp only [UInt8.reduceToNat]
    omega
  have hcard := card_le_of_near (wanted cs.radius u ∪ cs.near u) fun p hp =>
    (Finset.mem_union.mp hp).elim (fun hw => (mem_wanted.mp hw).2) (fun hn => (mem_near.mp hn).2)
  rcases h.length with hlength | hlength
  · unfold Roomy
    rw [hlength, hside]
    refine lt_of_le_of_lt hcard ?_
    generalize cs.radius.toNat = r at hle
    interval_cases r <;> decide
  · exact absurd (List.length_eq_zero_iff.mp hlength) hslots

/-! ### Runs -/

/-- The states that are reached from one while the camera stays in a chunk, with the number of
passes that nothing cut short before their first move. -/
inductive Stays (env : Externals) (u : IVec2) (cs : ChunkSystem) : ℕ → ChunkSystem → Prop
  /-- Nothing has happened. -/
  | here : Stays env u cs 0 cs
  /-- A pass, that comes to its end or not. -/
  | pass {n : ℕ} {mid cs' : ChunkSystem} {finished : Bool} (es : ℕ → Entropy) (busy : ℕ → Bool) : Stays env u cs n mid →
      mid.attendNeededSpots env es busy u u = .ok (cs', finished) →
      Stays env u cs (if Quiet busy 0 mid then n + 1 else n) cs'
  /-- A slot is rebuilt. -/
  | rebuilt {n : ℕ} {mid cs' : ChunkSystem} (e : Entropy) (index : ℕ) (userPower light : Bool) : Stays env u cs n mid →
      mid.rebuildIndex env e index userPower light = .ok cs' → Stays env u cs n cs'
  /-- Something else changes. -/
  | changed {n : ℕ} {mid cs' : ChunkSystem} : Stays env u cs n mid → cs'.registry = mid.registry →
      cs'.radius = mid.radius → Stays env u cs n cs'

/-- **The invariant** of a run: near chunks have stayed, and each quiet pass has left less to be
done. -/
structure Settling (env : Externals) (u : IVec2) (cs : ChunkSystem) (n : ℕ) (cs' : ChunkSystem) : Prop where
  /-- The state is one of a run. -/
  walked : Walked env cs'
  /-- The radius is the same. -/
  radius : cs'.radius = cs.radius
  /-- There still is room. -/
  roomy : cs'.Roomy u
  /-- Slots with near chunks have stayed. -/
  stays : ∀ j p, cs.registry.posOf j = some p → ¬ Far cs.radius u p → cs'.registry.posOf j = some p
  /-- What is left to be done. -/
  todo : cs'.unsettled u ≤ cs.unsettled u - n

theorem Settling.fetched {n : ℕ} {mid : ChunkSystem} {fetched : List IVec2} (h : Settling env u cs n mid)
    (hf : Fetched mid cs' u fetched) (hwalked : Walked env cs') : Settling env u cs n cs' where
  walked := hwalked
  radius := hf.radius.trans h.radius
  roomy := hf.roomy h.roomy
  stays j p hj hnear := hf.stays j p (h.stays j p hj hnear) (h.radius ▸ hnear)
  todo := hf.unsettled_le.trans h.todo

theorem settling_of_stays {n : ℕ} (h : Walked env cs) (haway : Away cs.radius u) (hroomy : cs.Roomy u)
    (hs : Stays env u cs n cs') : Settling env u cs n cs' := by
  induction hs with
  | here => exact ⟨h, rfl, hroomy, fun j p hj _ => hj, le_rfl⟩
  | pass es busy _ hpass ih =>
    have haway' := ih.radius ▸ haway
    obtain ⟨fetched, hf, -⟩ := exists_fetched ih.walked haway' ih.roomy hpass
    have hkeeps := ih.fetched hf (.attended es busy u u ih.walked hpass)
    split
    · next hq =>
      have hless := unsettled_lt ih.walked haway' ih.roomy hpass hq
      have htodo := ih.todo
      exact { hkeeps with todo := by omega }
    · exact hkeeps
  | rebuilt e index userPower light _ hr ih =>
    have hf := fetched_rebuild ih.walked.bijective (ih.radius ▸ haway) (radius_rebuildIndex hr) (registry_rebuildIndex hr)
    exact ih.fetched hf (.rebuilt e index userPower light ih.walked hr)
  | changed _ hregistry hradius ih =>
    exact ih.fetched (fetched_changed hradius hregistry) (.changed ih.walked hregistry hradius)

theorem Settling.allHeld {n : ℕ} (h : Settling env u cs n cs') (hn : cs.missing u < n) : cs'.AllHeld u := by
  have htodo := h.todo
  have hstart := unsettled_le cs u
  have hnone : cs'.unsettled u = 0 := by omega
  rw [unsettled] at hnone
  exact missing_eq_zero_iff.mp (by omega)

/-- **Where there is room, everything that is needed comes**: while the player stands still, near
chunks stay in their slots, and after more quiet passes than chunks were missing all that is
needed is registered, and passes do nothing any more. -/
theorem standing_settles {n : ℕ} (h : Walked env cs) (haway : Away cs.radius u) (hroomy : cs.Roomy u)
    (hs : Stays env u cs n cs') :
    (∀ j p, cs.registry.posOf j = some p → ¬ Far cs.radius u p → cs'.registry.posOf j = some p) ∧
      (cs.missing u < n → cs'.AllHeld u ∧
        ∀ es busy, cs'.attendNeededSpots env es busy u u = .ok (cs', true)) := by
  have hsettling := settling_of_stays h haway hroomy hs
  refine ⟨hsettling.stays, fun hn => ?_⟩
  have hall := hsettling.allHeld hn
  exact ⟨hall, fun es busy => attendNeededSpots_of_held hall⟩

/-- In the dark every pass is quiet. -/
theorem Dark.stays (hd : cs.Dark) (h : Walked .plain cs) (hradius : cs.radius ≤ 125) (hslots : cs.chunks ≠ []) (u : IVec2)
    (n : ℕ) : ∃ cs', Stays .plain u cs n cs' ∧ cs'.Dark ∧ Walked .plain cs' ∧ cs'.radius = cs.radius ∧ cs'.chunks ≠ [] := by
  induction n with
  | zero => exact ⟨cs, .here, hd, h, rfl, hslots⟩
  | succ n ih =>
    obtain ⟨mid, hs, hdark, hwalked, hsame, hne⟩ := ih
    obtain ⟨cs', hpass, hdark'⟩ : ∃ cs', mid.attendNeededSpots .plain (fun _ => .plain) (fun _ => false) u u =
        .ok (cs', true) ∧ cs'.Dark :=
      hdark.attendNeededSpots hwalked.bijective (missing_le_slots hwalked (hsame ▸ hradius) hne u)
    obtain ⟨hr, -, hp⟩ := pass_attendNeededSpots hpass
    have hquiet : Quiet (fun _ => false) 0 mid := ⟨rfl, hdark.user, hdark.light⟩
    have hstays := Stays.pass (fun _ => .plain) (fun _ => false) hs hpass
    rw [if_pos hquiet] at hstays
    refine ⟨cs', hstays, hdark', .attended _ _ u u hwalked hpass, hr.trans hsame, ?_⟩
    have hlength : cs'.chunks.length = mid.chunks.length := hp.length
    exact List.length_pos_iff.mp (hlength ▸ List.length_pos_iff.mpr hne)

/-- In a fresh world five passes are enough. -/
theorem standing_settles_fresh : ∃ cs', Stays .plain ⟨0, 0⟩ (new .plain 1 0 0 false) 5 cs' ∧ cs'.AllHeld ⟨0, 0⟩ := by
  have hfresh : Walked .plain (new .plain 1 0 0 false) := .fresh 1 0 0 false none
  obtain ⟨cs', hs, -⟩ := (dark_new 1 false).stays hfresh (by decide) (by decide) ⟨0, 0⟩ 5
  exact ⟨cs', hs, ((standing_settles hfresh (by decide) (roomy_of_radius_le hfresh (by decide) (by decide) _) hs).2 (by decide)).1⟩

/-- **Up to a radius of `6` everything that is needed comes**, wherever the player comes to stand
after any run. -/
theorem standing_settles_small {n : ℕ} (h : Walked env cs) (hradius : cs.radius ≤ 6) (hslots : cs.chunks ≠ [])
    (haway : Away cs.radius u) (hs : Stays env u cs n cs') (hn : cs.missing u < n) :
    cs'.AllHeld u ∧ ∀ es busy, cs'.attendNeededSpots env es busy u u = .ok (cs', true) := by
  have hall := (settling_of_stays h haway (roomy_of_radius_le h hradius hslots u) hs).allHeld hn
  exact ⟨hall, fun es busy => attendNeededSpots_of_held hall⟩

/-- The player walks on from one chunk to another. -/
theorem standing_settles_small_walked : ∃ cs cs', Stays .plain ⟨0, 0⟩ (new .plain 1 0 0 false) 1 cs ∧
    Stays .plain ⟨7, 0⟩ cs 5 cs' ∧ cs'.AllHeld ⟨7, 0⟩ := by
  have hfresh : Walked .plain (new .plain 1 0 0 false) := .fresh 1 0 0 false none
  obtain ⟨cs, hs, hdark, hwalked, hradius, hslots⟩ := (dark_new 1 false).stays hfresh (by decide) (by decide) ⟨0, 0⟩ 1
  have hsmall : cs.radius = 1 := hradius
  obtain ⟨cs', hs', -⟩ := hdark.stays hwalked (by rw [hsmall]; decide) hslots ⟨7, 0⟩ 5
  have hmissing : cs.missing ⟨7, 0⟩ ≤ 4 := by
    rw [missing, hsmall]
    exact List.countP_le_length
  exact ⟨cs, cs', hs, hs', (standing_settles_small hwalked (by rw [hsmall]; decide) hslots (by rw [hsmall]; decide) hs'
    (by omega)).1⟩

end ChunkSystem

end Distgard
