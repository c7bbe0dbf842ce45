import Distgard.Light.Lightpass

/-!
# The chunks that a pass implicates

While a pass takes light back and spreads it, it notes the chunks that it comes to, and asks for
them to be rebuilt. Taking light back notes the chunk of every cell visited; spreading light notes
it only where the light goes on.

## What is proved

* `mem_imp_depropagate` — taking back the light of an origin notes the chunks of its rays.
* `mem_imp_propagate` — spreading light notes the chunks of the cells that the wave leaves again.
* `mem_implicated` — which chunks a pass asks to be rebuilt.
-/

namespace Distgard

open Lib LightMap

/-- A chunk is noted when it is not that of the origin. -/
theorem mem_enterChunk {origin spot : IVec3} {imp : HashSet IVec2} {key : IVec2} :
    key ∈ enterChunk origin spot imp ↔ key ∈ imp ∨ spotToChunkPos origin ≠ key ∧ spotToChunkPos spot = key := by
  unfold enterChunk
  split
  · next hne =>
    rw [List.mem_insert_iff, or_comm]
    apply or_congr_right
    constructor
    · rintro rfl
      exact ⟨hne, rfl⟩
    · rintro ⟨-, rfl⟩
      rfl
  · next heq =>
    constructor
    · exact .inl
    · rintro (h | ⟨hne, rfl⟩)
      · exact h
      · exact absurd hne heq

/-! ### Taking light back -/

section

variable {origin : IVec3}

/-- A round notes the chunk of the cell popped. -/
theorem imp_depropStep {st st' : DepropState} (h : depropStep origin st = some st') :
    ∃ spot rest, st.stack = spot :: rest ∧ st'.imp = enterChunk origin spot st.imp := by
  unfold depropStep at h
  match hst : st.stack with
  | [] => rw [hst] at h; cases h
  | spot :: rest =>
    rw [hst] at h
    simp only at h
    refine ⟨spot, rest, rfl, ?_⟩
    split at h
    · cases h
      rfl
    · cases h
      rfl

/-- The invariant: the cells found from the origin have been noted, or are still found from the
stack, and no others are. -/
structure Visits (origin : IVec3) (lm : LightMap) (imp : HashSet IVec2) (st : DepropState) : Prop where
  /-- No cell has two rays of the origin. -/
  single : st.lightmap.Single origin
  /-- The rays that are left were there before. -/
  rays : ∀ x r, st.lightmap.ray? origin x = some r → lm.ray? origin x = some r
  /-- The cells on the stack are found from the origin. -/
  stack : ∀ x ∈ st.stack, Linked (lm.ray? origin) origin x
  /-- A chunk that is noted is one of a cell that is found. -/
  sound : ∀ key ∈ st.imp, key ∈ imp ∨
    ∃ x, Linked (lm.ray? origin) origin x ∧ spotToChunkPos origin ≠ key ∧ spotToChunkPos x = key
  /-- What was noted before is still noted. -/
  kept : ∀ key ∈ imp, key ∈ st.imp
  /-- The chunk of a cell that is found is noted, or will be. -/
  complete : ∀ x, Linked (lm.ray? origin) origin x → spotToChunkPos origin ≠ spotToChunkPos x →
    spotToChunkPos x ∈ st.imp ∨ ∃ s ∈ st.stack, Linked (st.lightmap.ray? origin) s x

theorem Visits.step {lm : LightMap} {imp : HashSet IVec2} {st st' : DepropState} (h : Visits origin lm imp st)
    (hs : depropStep origin st = some st') : Visits origin lm imp st' := by
  obtain ⟨spot, rest, hst, -, hown, hmem⟩ := depropStep_cases hs
  obtain ⟨spot', rest', hst', himp⟩ := imp_depropStep hs
  rw [hst] at hst'
  cases hst'
  have hray : ∀ y, st'.lightmap.ray? origin y = if y = spot then none else st.lightmap.ray? origin y := by
    intro y
    rw [ray?, hown]
    split <;> rfl
  have hspot : Linked (lm.ray? origin) origin spot := h.stack spot (by rw [hst]; exact List.mem_cons_self)
  constructor
  case single =>
    intro y
    rw [hown]
    split
    · exact Nat.zero_le 1
    · exact h.single y
  case rays =>
    intro x r hr
    rw [hray] at hr
    split at hr
    · cases hr
    · exact h.rays x r hr
  case stack =>
    intro x hx
    rcases (hmem x).mp hx with hx | ⟨r, hr, dir, hdir, rfl⟩
    · exact h.stack x (by rw [hst]; exact List.mem_cons_of_mem _ hx)
    · rw [h.single.own_eq, Option.mem_toList] at hr
      exact .step hspot (h.rays spot r hr) hdir
  case sound =>
    intro key hkey
    rw [himp, mem_enterChunk] at hkey
    rcases hkey with hkey | ⟨hne, hkey⟩
    · exact h.sound key hkey
    · exact .inr ⟨spot, hspot, hne, hkey⟩
  case kept =>
    intro key hkey
    rw [himp, mem_enterChunk]
    exact .inl (h.kept key hkey)
  case complete =>
    intro x hx hne
    rw [himp, mem_enterChunk]
    by_cases hxs : x = spot
    · subst hxs
      exact .inl (.inr ⟨hne, rfl⟩)
    rcases h.complete x hx hne with hkey | ⟨s, hs, hl⟩
    · exact .inl (.inl hkey)
    right
    rcases hl.cut hray with hx' | hx' | ⟨r, hr, dir, hdir, hx'⟩
    · exact absurd hx' hxs
    · rcases List.mem_cons.mp (hst ▸ hs) with rfl | hs
      · -- found from the popped cell, whose ray is gone: it is that cell
        exact absurd (hx'.eq_of_none (by rw [hray, if_pos rfl])) hxs
      · exact ⟨s, (hmem s).mpr (.inl hs), hx'⟩
    · refine ⟨spot + dir.offset, (hmem _).mpr (.inr ⟨r, ?_, dir, hdir, rfl⟩), hx'⟩
      rw [h.single.own_eq, hr]
      exact List.mem_singleton.mpr rfl

/-- **What taking light back notes**: the chunks of the cells that are found from the origin. -/
theorem mem_imp_depropagate {lm : LightMap} (hsingle : lm.Single origin) (imp : HashSet IVec2) (key : IVec2) :
    key ∈ (depropagateLightOrigin origin lm imp).2 ↔ key ∈ imp ∨
      ∃ x, Linked (lm.ray? origin) origin x ∧ spotToChunkPos origin ≠ key ∧ spotToChunkPos x = key := by
  have hstart : Visits origin lm imp ⟨[origin], lm, imp⟩ := by
    refine ⟨hsingle, fun x r hr => hr, ?_, fun key hkey => .inl hkey, fun key hkey => hkey, ?_⟩
    · intro x hx
      rw [List.mem_singleton.mp hx]
      exact .origin
    · intro x hx _
      exact .inr ⟨origin, List.mem_singleton.mpr rfl, hx⟩
  obtain ⟨hvisits, hnone⟩ := Loop.exec_induct (depropStep_decreases origin) (fun _ _ => Visits.step) hstart
  have hnil := stack_eq_nil_of_depropStep hnone
  constructor
  · exact hvisits.sound key
  · rintro (hkey | ⟨x, hx, hne, rfl⟩)
    · exact hvisits.kept key hkey
    · rcases hvisits.complete x hx hne with hkey | ⟨s, hs, -⟩
      · exact hkey
      · rw [hnil] at hs
        cases hs

end

/-! ### Spreading light -/

section

variable {blockat : IVec3 → UInt32} {sides : List CubeSide} {origin : IVec3} {value : LightColor}

/-- Visiting a neighbor notes no chunk. -/
theorem imp_visitSides (n : LightColor × IVec3) (l : List CubeSide) (st : PropState) :
    (l.foldl (visitSide origin n) st).imp = st.imp := by
  induction l generalizing st with
  | nil => rfl
  | cons side l ih =>
    rw [List.foldl_cons, ih]
    rcases visitSide_cases origin n st side with ⟨he, -⟩ | he
    · rw [he]
    · rw [he]

/-- A round notes the chunk of the cell popped, if the light goes on from there. -/
theorem imp_propStep {st st' : PropState} (h : propStep blockat sides origin st = some st') :
    ∃ n rest, st.stack = n :: rest ∧
      st'.imp = if goinghere blockat origin n.2 then enterChunk origin n.2 st.imp else st.imp := by
  unfold propStep at h
  match hst : st.stack with
  | [] => rw [hst] at h; cases h
  | n :: rest =>
    rw [hst] at h
    simp only at h
    refine ⟨n, rest, rfl, ?_⟩
    split at h
    · next hgo =>
      rw [if_pos hgo]
      split at h
      · cases h
        exact imp_visitSides n sides _
      · cases h
        rfl
    · next hgo =>
      rw [if_neg hgo]
      cases h
      rfl

/-- The directions of the rays lead to cells that have been visited. -/
def Leads (origin : IVec3) (st : PropState) : Prop :=
  ∀ x r, st.lightmap.ray? origin x = some r → ∀ side ∈ r.directions, x + side.offset ∈ st.visited

theorem Leads.visitSide {n : LightColor × IVec3} {st : PropState} (h : Leads origin st) (side : CubeSide) :
    Leads origin (visitSide origin n st side) := by
  rcases visitSide_cases origin n st side with ⟨he, -⟩ | he
  · rw [he]
    exact h
  · rw [he]
    intro x r hr side' hside
    rw [List.mem_insert_iff]
    rw [ray?_addDirection] at hr
    split at hr
    · next hx =>
      subst hx
      obtain ⟨r', hr', rfl⟩ := Option.map_eq_some_iff.mp hr
      rcases mem_withDirection.mp hside with rfl | hside
      · exact .inl rfl
      · exact .inr (h _ r' hr' side' hside)
    · exact .inr (h x r hr side' hside)

theorem Leads.visitSides {n : LightColor × IVec3} (l : List CubeSide) {st : PropState} (h : Leads origin st) :
    Leads origin (l.foldl (Distgard.visitSide origin n) st) :=
  foldl_induct (Leads origin) l (fun _ side _ h => h.visitSide side) h

theorem Leads.step {st st' : PropState} (h : Leads origin st) (hs : propStep blockat sides origin st = some st') :
    Leads origin st' := by
  obtain ⟨n, rest, popped, hst, -, hvis, hlm, hcase⟩ := propStep_cases blockat sides origin hs
  have hpopped : Leads origin popped := by
    intro x r hr side hside
    rw [hvis]
    rw [ray?_popped hlm] at hr
    split at hr
    · next hx =>
      subst hx
      cases Option.some.inj hr
      cases hr' : st.lightmap.ray? origin n.2 with
      | none =>
        rw [hr'] at hside
        cases hside
      | some r' =>
        rw [hr'] at hside
        exact h _ r' hr' side hside
    · exact h x r hr side hside
  rcases hcase with ⟨-, -, rfl⟩ | ⟨-, rfl⟩
  · exact hpopped.visitSides sides
  · exact hpopped

/-- The invariant: of the cells that are lit, the chunks have been noted if the light goes on from
there, and no others have. -/
structure Enters (blockat : IVec3 → UInt32) (origin : IVec3) (value : LightColor) (imp : HashSet IVec2) (st : PropState) :
    Prop where
  /-- A chunk that is noted is one of a cell that the wave reaches and leaves again. -/
  sound : ∀ key ∈ st.imp, key ∈ imp ∨ ∃ x k, Reaches blockat origin value k x ∧ goinghere blockat origin x = true ∧
    spotToChunkPos origin ≠ key ∧ spotToChunkPos x = key
  /-- What was noted before is still noted. -/
  kept : ∀ key ∈ imp, key ∈ st.imp
  /-- The chunk of a lit cell is noted if the light goes on from there. -/
  complete : ∀ x r, st.lightmap.ray? origin x = some r → goinghere blockat origin x = true →
    spotToChunkPos origin ≠ spotToChunkPos x → spotToChunkPos x ∈ st.imp

/-- A round lights no cell but the one popped. -/
theorem lit_of_propStep {st st' : PropState} (h : propStep blockat sides origin st = some st') {n : LightColor × IVec3}
    {rest : List (LightColor × IVec3)} (hst : st.stack = n :: rest) {x : IVec3} {r : LightRay}
    (hr : st'.lightmap.ray? origin x = some r) : x = n.2 ∨ ∃ r', st.lightmap.ray? origin x = some r' := by
  obtain ⟨n', rest', popped, hst', -, -, hlm, hcase⟩ := propStep_cases blockat sides origin h
  rw [hst] at hst'
  cases hst'
  have hpopped : ∀ r, popped.lightmap.ray? origin x = some r → x = n.2 ∨ ∃ r', st.lightmap.ray? origin x = some r' := by
    intro r hr
    rw [ray?_popped hlm] at hr
    split at hr
    · next hx => exact .inl hx
    · exact .inr ⟨r, hr⟩
  rcases hcase with ⟨-, -, rfl⟩ | ⟨-, rfl⟩
  · have hfold : ∀ r, (sides.foldl (visitSide origin n) popped).lightmap.ray? origin x = some r →
        ∃ r', popped.lightmap.ray? origin x = some r' := by
      refine foldl_induct (fun st : PropState => ∀ r, st.lightmap.ray? origin x = some r →
        ∃ r', popped.lightmap.ray? origin x = some r') sides ?_ fun r hr => ⟨r, hr⟩
      intro st side _ ih r hr
      obtain ⟨r', hr', -⟩ := ray_before_visitSide hr
      exact ih r' hr'
    obtain ⟨r', hr'⟩ := hfold r hr
    exact hpopped r' hr'
  · exact hpopped r hr

theorem Enters.step {imp : HashSet IVec2} {st st' : PropState} (h : Enters blockat origin value imp st)
    (hinv : Inv blockat origin value st) (hs : propStep blockat sides origin st = some st') :
    Enters blockat origin value imp st' := by
  obtain ⟨n, rest, hst, himp⟩ := imp_propStep hs
  obtain ⟨k, hk, -⟩ := hinv.stackSound n.1 n.2 (by rw [hst]; exact List.mem_cons_self)
  have hgrows : ∀ key ∈ st.imp, key ∈ st'.imp := by
    intro key hkey
    rw [himp]
    split
    · exact mem_enterChunk.mpr (.inl hkey)
    · exact hkey
  constructor
  case sound =>
    intro key hkey
    rw [himp] at hkey
    split at hkey
    · next hgo =>
      rcases mem_enterChunk.mp hkey with hkey | ⟨hne, hkey⟩
      · exact h.sound key hkey
      · exact .inr ⟨n.2, k, hk, hgo, hne, hkey⟩
    · exact h.sound key hkey
  case kept => exact fun key hkey => hgrows key (h.kept key hkey)
  case complete =>
    intro x r hr hgo hne
    rcases lit_of_propStep hs hst hr with rfl | ⟨r', hr'⟩
    · rw [himp, if_pos hgo]
      exact mem_enterChunk.mpr (.inr ⟨hne, rfl⟩)
    · exact hgrows _ (h.complete x r' hr' hgo hne)

/-- What spreading light ends with. -/
theorem propagate_enters (blockat : IVec3 → UInt32) (value : LightColor) (hall : ∀ side, side ∈ sides) {lm : LightMap}
    (hlm : ∀ x, lm.ray? origin x = none)
    (imp : HashSet IVec2) : ∃ st : PropState,
      (st.lightmap, st.imp) = propagateWith blockat sides origin lm origin value imp ∧ st.stack = [] ∧
      (Inv blockat origin value st ∧ Closed blockat origin st) ∧ Enters blockat origin value imp st ∧ Leads origin st := by
  have hdark : ∀ {x r}, lm.ray? origin x = some r → False := by
    intro x r hr
    rw [hlm x] at hr
    cases hr
  obtain ⟨⟨hinv, henters, hleads⟩, hnone⟩ := Loop.exec_induct (propStep_decreases blockat sides origin)
    (I := fun st => (Inv blockat origin value st ∧ Closed blockat origin st) ∧ Enters blockat origin value imp st ∧
      Leads origin st)
    (fun st st' h hs => ⟨Inv.step hall h.1 hs, h.2.1.step h.1.1 hs, h.2.2.step hs⟩)
    ⟨inv_start blockat value imp hlm, ⟨fun key hkey => .inl hkey, fun key hkey => hkey, fun x r hr => (hdark hr).elim⟩,
      fun x r hr => (hdark hr).elim⟩
  exact ⟨_, rfl, stack_eq_nil_of_propStep blockat sides origin hnone, hinv, henters, hleads⟩

/-- **What spreading light notes**: the chunks of the cells that the wave reaches and leaves again. -/
theorem mem_imp_propagate (blockat : IVec3 → UInt32) (value : LightColor) (hall : ∀ side, side ∈ sides) {lm : LightMap}
    (hlm : ∀ x, lm.ray? origin x = none)
    (imp : HashSet IVec2) (key : IVec2) : key ∈ (propagateWith blockat sides origin lm origin value imp).2 ↔ key ∈ imp ∨
      ∃ x k, Reaches blockat origin value k x ∧ goinghere blockat origin x = true ∧
        spotToChunkPos origin ≠ key ∧ spotToChunkPos x = key := by
  obtain ⟨st, hst, hnil, ⟨hinv, hclosed⟩, henters, -⟩ := propagate_enters blockat value hall hlm imp
  rw [← hst]
  constructor
  · exact henters.sound key
  · rintro (hkey | ⟨x, k, hk, hgo, hne, rfl⟩)
    · exact henters.kept key hkey
    · obtain ⟨r, hr, -⟩ := hinv.lit_of_reaches hclosed hnil hk
      exact henters.complete x r hr hgo hne

/-- The rays that spreading light leaves lead to lit cells. -/
theorem propagate_leads (hall : ∀ side, side ∈ sides) {lm : LightMap} (hlm : ∀ x, lm.ray? origin x = none)
    (imp : HashSet IVec2) {x : IVec3} {r : LightRay}
    (hr : (propagateWith blockat sides origin lm origin value imp).1.ray? origin x = some r) {side : CubeSide}
    (hside : side ∈ r.directions) :
    ∃ r', (propagateWith blockat sides origin lm origin value imp).1.ray? origin (x + side.offset) = some r' := by
  obtain ⟨st, hst, hnil, ⟨hinv, -⟩, -, hleads⟩ := propagate_enters blockat value hall hlm imp
  rw [← hst] at hr ⊢
  rcases hinv.visited _ (hleads x r hr side hside) with ⟨r', hr', -⟩ | ⟨v, hv, -⟩
  · exact ⟨r', hr'⟩
  · rw [hnil] at hv
    cases hv

end

/-! ### The two loops over sources -/

/-- What taking back the light of several origins notes. -/
theorem mem_imp_depropagateAll {l : List IVec3} (hnodup : l.Nodup) {s : LightMap × HashSet IVec2}
    (h : ∀ o ∈ l, Traced s.1 o) (key : IVec2) : key ∈ (depropagateAll l s).2 ↔ key ∈ s.2 ∨
      ∃ o ∈ l, ∃ x, Linked (s.1.ray? o) o x ∧ spotToChunkPos o ≠ key ∧ spotToChunkPos x = key := by
  induction l generalizing s with
  | nil => simp [depropagateAll]
  | cons source l ih =>
    obtain ⟨hnotin, hnodup'⟩ := List.nodup_cons.mp hnodup
    have hother : ∀ o ∈ l, ∀ x, (depropagateLightOrigin source s.1 s.2).1.own o x = s.1.own o x := by
      intro o ho x
      exact own_congr (ne_of_mem_of_not_mem ho hnotin) (depropagate_frame source s.1 s.2 x)
    have hray : ∀ o ∈ l, (depropagateLightOrigin source s.1 s.2).1.ray? o = s.1.ray? o := by
      intro o ho
      funext x
      rw [ray?, ray?, hother o ho]
    have hrest := ih hnodup' (s := depropagateLightOrigin source s.1 s.2)
      fun o ho => (h o (List.mem_cons_of_mem _ ho)).congr (hother o ho)
    rw [depropagateAll, List.foldl_cons, ← depropagateAll, hrest,
      mem_imp_depropagate (h source List.mem_cons_self).single s.2 key, or_assoc]
    apply or_congr_right
    constructor
    · rintro (hx | ⟨o, ho, hx⟩)
      · exact ⟨source, List.mem_cons_self, hx⟩
      · rw [hray o ho] at hx
        exact ⟨o, List.mem_cons_of_mem _ ho, hx⟩
    · rintro ⟨o, ho, hx⟩
      rcases List.mem_cons.mp ho with rfl | ho
      · exact .inl hx
      · rw [← hray o ho] at hx
        exact .inr ⟨o, ho, hx⟩

/-- What spreading the light of several light blocks notes. -/
theorem mem_imp_propagateAll {blockat : IVec3 → UInt32} {l : List (IVec3 × UInt32)} (hnodup : (l.map Prod.fst).Nodup)
    {s : LightMap × HashSet IVec2} (hdark : ∀ source ∈ l, ∀ x, s.1.own source.1 x = []) (key : IVec2) :
    key ∈ (propagateAll blockat l s).2 ↔ key ∈ s.2 ∨ ∃ source ∈ l, ∃ x k,
      Reaches blockat source.1 (Blocks.getLightColor source.2) k x ∧ goinghere blockat source.1 x = true ∧
        spotToChunkPos source.1 ≠ key ∧ spotToChunkPos x = key := by
  induction l generalizing s with
  | nil => simp [propagateAll]
  | cons source l ih =>
    obtain ⟨hnotin, hnodup'⟩ := List.nodup_cons.mp hnodup
    have hdark' : ∀ source' ∈ l, ∀ x,
        (propagateLightOrigin blockat s.1 source.1 source.1 (Blocks.getLightColor source.2) s.2).1.own source'.1 x = [] := by
      intro source' hs x
      have hne : source'.1 ≠ source.1 := fun e => hnotin (List.mem_map.mpr ⟨source', hs, e⟩)
      rw [← hdark source' (List.mem_cons_of_mem _ hs) x]
      exact own_congr hne (propagate_frame blockat _ source.1 s.1 source.1 _ s.2 x)
    have hhead := mem_imp_propagate blockat (Blocks.getLightColor source.2) CubeSide.mem_all
      (fun x => ray?_eq_none_iff.mpr (hdark source List.mem_cons_self x)) s.2 key
    have hcons : propagateAll blockat (source :: l) s = propagateAll blockat l
        (propagateLightOrigin blockat s.1 source.1 source.1 (Blocks.getLightColor source.2) s.2) := rfl
    rw [hcons, ih hnodup' hdark', propagateLightOrigin, hhead, or_assoc]
    simp only [List.mem_cons, exists_eq_or_imp]

/-! ### The whole pass -/

/-- The rays of an origin lead to cells that it lights. -/
def Guided (lm : LightMap) (o : IVec3) : Prop :=
  ∀ x r, lm.ray? o x = some r → ∀ side ∈ r.directions, ∃ r', lm.ray? o (x + side.offset) = some r'

/-- In every lightmap that passes have made, rays lead to lit cells. -/
theorem Lightpassed.guided {lm : LightMap} (h : Lightpassed lm) (o : IVec3) : Guided lm o := by
  induction h with
  | dark =>
    intro x r hr
    rw [ray?, own, rays_empty] at hr
    cases hr
  | pass e cs pos hcs ih =>
    have hown := own_lightpassOnChunk e hcs.wellLit pos o
    by_cases hp : spotToChunkPos o = pos
    · by_cases hs : Shines cs.blockat o
      · have hray : (cs.lightpassOnChunk e pos).lightmap.ray? o =
            (propagateLightOrigin cs.blockat ∅ o o (Blocks.getLightColor (cs.blockat o)) []).1.ray? o := by
          funext x
          rw [ray?, ray?, hown, if_pos hp, if_pos hs, lightOf]
        intro x r hr side hside
        rw [hray] at hr ⊢
        exact propagate_leads CubeSide.mem_all (fun x => by rw [ray?, own, rays_empty]; rfl) [] hr hside
      · intro x r hr
        rw [ray?, hown, if_pos hp, if_neg hs] at hr
        cases hr
    · have hray : (cs.lightpassOnChunk e pos).lightmap.ray? o = cs.lightmap.ray? o := by
        funext x
        rw [ray?, ray?, hown, if_neg hp]
      intro x r hr side hside
      rw [hray] at hr ⊢
      exact ih x r hr side hside

/-- The cells that are found from an origin, other than itself, are lit. -/
theorem Guided.lit_of_linked {lm : LightMap} {o x : IVec3} (h : Guided lm o) (hx : Linked (lm.ray? o) o x) :
    x = o ∨ ∃ r, lm.ray? o x = some r := by
  induction hx with
  | origin => exact .inl rfl
  | step _ hy hside _ => exact .inr (h _ _ hy _ hside)

namespace ChunkSystem

/-- The chunks that a pass notes. -/
def implicated (e : Entropy) (cs : ChunkSystem) (pos : IVec2) : HashSet IVec2 :=
  let sources := scanChunk cs.blockat cs.lightmap pos
  let dark := depropagateAll (e.spots.iter sources.existingsources) (cs.lightmap, [])
  (propagateAll cs.blockat (e.sources.iter sources.lightsources) dark).2

/-- A pass asks for the chunks that it notes. -/
theorem userRebuildRequests_lightpassOnChunk (e : Entropy) (cs : ChunkSystem) (pos : IVec2) :
    (cs.lightpassOnChunk e pos).userRebuildRequests =
      cs.userRebuildRequests ++ cs.slotsOf (e.chunks.iter (cs.implicated e pos)) := rfl

/-- The light of a chunk touches another: one of its cells has a ray from there, or lets light
pass and gets light from a light block there. -/
def Touches (cs : ChunkSystem) (pos key : IVec2) : Prop :=
  ∃ o, spotToChunkPos o = pos ∧ ∃ x, spotToChunkPos x = key ∧
    ((∃ v, cs.lightmap.Ray x o v) ∨ Blocks.passable (cs.blockat x) = true ∧ ∃ v, Sheds cs.blockat o x v)

/-- **What a pass asks for**: the other chunks that the light of the chunk touches. -/
theorem mem_implicated (e : Entropy) {cs : ChunkSystem} (h : Lightpassed cs.lightmap) (pos key : IVec2) :
    key ∈ cs.implicated e pos ↔ pos ≠ key ∧ cs.Touches pos key := by
  have hlit := h.wellLit
  have hexisting : ∀ {o}, o ∈ e.spots.iter (scanChunk cs.blockat cs.lightmap pos).existingsources ↔
      spotToChunkPos o = pos ∧ ∃ x r, cs.lightmap.ray? o x = some r := by
    intro o
    rw [IterOrder.mem_iter, hlit.mem_existingsources]
  have hlights : ∀ {source}, source ∈ e.sources.iter (scanChunk cs.blockat cs.lightmap pos).lightsources ↔
      source.2 = cs.blockat source.1 ∧ spotToChunkPos source.1 = pos ∧ Shines cs.blockat source.1 := by
    intro source
    rw [IterOrder.mem_iter, hlit.mem_lightsources]
  have hok : (scanChunk cs.blockat cs.lightmap pos).Ok cs.blockat := scanChunk_ok
  rw [implicated, mem_imp_propagateAll (nodup_lightsources e cs.blockat cs.lightmap pos)
    (fun source hs x => (own_taken e hlit cs.blockat pos source.1 x).trans (if_pos (hlights.mp hs).2.1)),
    mem_imp_depropagateAll (e.spots.nodup_iter hok.existing) fun o _ => hlit.traced o]
  constructor
  · rintro ((hkey | ⟨o, ho, x, hx, hne, hkey⟩) | ⟨source, hs, x, k, hk, hgo, hne, hkey⟩)
    · cases hkey
    · obtain ⟨hpos, -⟩ := hexisting.mp ho
      refine ⟨hpos ▸ hne, o, hpos, x, hkey, .inl ?_⟩
      rcases (h.guided o).lit_of_linked hx with rfl | ⟨r, hr⟩
      · exact absurd hkey hne
      · exact ⟨r.value, r, mem_rays_of_ray? hr, origin_of_ray? hr, rfl⟩
    · obtain ⟨hword, hpos, hshines⟩ := hlights.mp hs
      rw [hword] at hk
      obtain ⟨j, -, hj⟩ := Wave.Reach.exists_arrive hk
      have hx : x ≠ source.1 := by
        rintro rfl
        exact hne hkey
      refine ⟨hpos ▸ hne, source.1, hpos, x, hkey, .inr ⟨?_, _, hshines, j, hj, rfl⟩⟩
      simpa [goinghere, hx] using hgo
  · rintro ⟨hne, o, hpos, x, hkey, ⟨v, r, hr, rfl, hv⟩ | ⟨hpass, v, hshines, k, hk, -⟩⟩
    · have hray := (hlit.traced r.origin).single.ray?_eq_some hr
      exact .inl (.inr ⟨r.origin, hexisting.mpr ⟨hpos, x, r, hray⟩, x, (hlit.traced r.origin).linked x r hray,
        hpos ▸ hne, hkey⟩)
    · refine .inr ⟨(o, cs.blockat o), hlights.mpr ⟨rfl, hpos, hshines⟩, x, k, hk.reach, ?_, hpos ▸ hne, hkey⟩
      simp [goinghere, hpass]

end ChunkSystem

end Distgard
