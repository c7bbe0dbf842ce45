import Distgard.Blocks
import Distgard.Lib.Loop
import Distgard.Lib.Wave
import Distgard.Light.LightMap

/-!
# Spreading the light of one origin

`propagateLightOrigin` spreads a color from an origin with a stack of cells still to be
lit. A cell may be reached first by a detour and later by a shorter way; the light is
then spread again from there, brighter. The loop ends because a color that is pushed is
darker, by `2` in its brightest channel, than the one that was popped for it.

## What is proved

* `propagate_frame` — the rays of every other origin stay as they were.
* `propagate_arrive` — from a lightmap without rays of the origin, the rays of the origin
  are afterwards those of the wave from the origin (`Lib.Wave`): a cell has one exactly
  when the wave arrives there, with the color left after the steps it took.
* `propagate_own_congr` — the light of other origins does not matter.
* `propagate_linked` — every cell that is lit is found from the origin by following the
  recorded directions.

The invariant of the loop is `Inv`. Its heart is `Covered x u`: the cell `x` either has a
ray at least as bright as `u` or waits on the stack to get one. Every neighbor of a cell
from which light spreads is covered by the faded color of that cell; when the stack is
empty, covered cells are lit.
-/

namespace Distgard

open Lib LightMap

/-- The state of the loop that spreads light. -/
structure PropState where
  /-- The colors still to be shone, and where, the next one first. -/
  stack : List (LightColor × IVec3)
  /-- The cells that have been put on the stack. -/
  visited : HashSet IVec3
  /-- The lightmap. -/
  lightmap : LightMap
  /-- The chunks, other than the origin's, into which the light has gone. -/
  imp : HashSet IVec2

/-- Put the faded color on the stack for the neighbor at a side, if it was never there or
the color it shows is darker in some channel. -/
def visitSide (origin : IVec3) (n : LightColor × IVec3) (st : PropState) (side : CubeSide) : PropState :=
  let next := n.2 + side.offset
  let existing := st.lightmap.existingValue origin next
  let reduced := n.1.fade
  if next ∉ st.visited ∨ existing.x < reduced.x ∨ existing.y < reduced.y ∨ existing.z < reduced.z then
    { st with
      stack := (reduced, next) :: st.stack
      visited := st.visited.insert next
      lightmap := st.lightmap.addDirection n.2 origin side }
  else st

namespace PropState

/-- The state after `n` is popped, leaving `rest`, and shines in its cell. -/
def shone (origin : IVec3) (n : LightColor × IVec3) (rest : List (LightColor × IVec3)) (st : PropState) :
    PropState :=
  { st with stack := rest, lightmap := st.lightmap.shine n.2 origin n.1 }

/-- The state after the chunk of a cell is noted. -/
def entered (origin spot : IVec3) (st : PropState) : PropState := { st with imp := enterChunk origin spot st.imp }

end PropState

section

variable (blockat : IVec3 → UInt32) (sides : List CubeSide) (origin : IVec3)

/-- The light of the origin goes on from the cell. -/
def goinghere (spot : IVec3) : Bool := Blocks.passable (blockat spot) || spot = origin

/-- One round of the loop: shine the color popped from the stack, and go on from there. -/
def propStep (st : PropState) : Option PropState :=
  match st.stack with
  | [] => none
  | n :: rest =>
    let shone := st.shone origin n rest
    if goinghere blockat origin n.2 then
      if n.1.spreads then some (sides.foldl (visitSide origin n) (shone.entered origin n.2))
      else some (shone.entered origin n.2)
    else some shone

/-- What a color on the stack weighs: more than all it can still put there. -/
def stackWeight (stack : List (LightColor × IVec3)) : ℕ :=
  (stack.map fun n => (sides.length + 1) ^ n.1.brightest).sum

/-- Visiting neighbors adds at most one faded color for each. -/
theorem stackWeight_visitSides (n : LightColor × IVec3) (l : List CubeSide) (st : PropState) :
    stackWeight sides (l.foldl (visitSide origin n) st).stack ≤
      stackWeight sides st.stack + l.length * (sides.length + 1) ^ n.1.fade.brightest := by
  induction l generalizing st with
  | nil => simp
  | cons side l ih =>
    rw [List.foldl_cons, List.length_cons, Nat.add_mul, Nat.one_mul]
    have hone : stackWeight sides (visitSide origin n st side).stack ≤
        stackWeight sides st.stack + (sides.length + 1) ^ n.1.fade.brightest := by
      unfold visitSide
      dsimp only
      split
      · simp [stackWeight, Nat.add_comm]
      · exact Nat.le_add_right _ _
    have := ih (visitSide origin n st side)
    omega

/-- What a round does: it pops a color and shines it, and goes on to the neighbors or not. -/
theorem propStep_cases {st st' : PropState} (h : propStep blockat sides origin st = some st') :
    ∃ n rest popped, st.stack = n :: rest ∧ popped.stack = rest ∧ popped.visited = st.visited ∧
      popped.lightmap = st.lightmap.shine n.2 origin n.1 ∧
      ((goinghere blockat origin n.2 = true ∧ n.1.spreads = true ∧ st' = sides.foldl (visitSide origin n) popped) ∨
        ((goinghere blockat origin n.2 = true → n.1.spreads = false) ∧ st' = popped)) := by
  unfold propStep at h
  match hst : st.stack with
  | [] => rw [hst] at h; cases h
  | n :: rest =>
    rw [hst] at h
    simp only at h
    split at h
    · next hg =>
      refine ⟨n, rest, (st.shone origin n rest).entered origin n.2, rfl, rfl, rfl, rfl, ?_⟩
      split at h
      · next hs => exact .inl ⟨hg, hs, (Option.some.inj h).symm⟩
      · next hs => exact .inr ⟨fun _ => by simpa using hs, (Option.some.inj h).symm⟩
    · next hg =>
      exact ⟨n, rest, st.shone origin n rest, rfl, rfl, rfl, rfl,
        .inr ⟨fun hg' => absurd hg' hg, (Option.some.inj h).symm⟩⟩

/-- The loop stops when the stack is empty. -/
theorem stack_eq_nil_of_propStep {st : PropState} (h : propStep blockat sides origin st = none) :
    st.stack = [] := by
  unfold propStep at h
  match hst : st.stack with
  | [] => rfl
  | n :: rest =>
    rw [hst] at h
    simp only at h
    split at h
    · split at h <;> cases h
    · cases h

theorem propStep_decreases :
    Loop.Decreases (propStep blockat sides origin) fun st => stackWeight sides st.stack := by
  intro st st' h
  obtain ⟨n, rest, popped, hst, hrest, -, -, ⟨-, hs, rfl⟩ | ⟨-, rfl⟩⟩ := propStep_cases blockat sides origin h
  · refine lt_of_le_of_lt (stackWeight_visitSides sides origin n sides _) ?_
    -- a faded color weighs so little that one for each side weighs less than the color
    have hb := LightColor.brightest_fade hs
    have hpow : (sides.length + 1) ^ (n.1.fade.brightest + 1) ≤ (sides.length + 1) ^ n.1.brightest :=
      Nat.pow_le_pow_right (Nat.succ_pos _) (by omega)
    have hlt : sides.length * (sides.length + 1) ^ n.1.fade.brightest <
        (sides.length + 1) ^ (n.1.fade.brightest + 1) := by
      rw [Nat.pow_succ, Nat.mul_comm]
      exact Nat.mul_lt_mul_of_pos_left (Nat.lt_succ_self _) (Nat.pow_pos (Nat.succ_pos _))
    simp only [hrest, hst, stackWeight, List.map_cons, List.sum_cons]
    omega
  · have hpos : 0 < (sides.length + 1) ^ n.1.brightest := Nat.pow_pos (Nat.succ_pos _)
    simp only [hrest, hst, stackWeight, List.map_cons, List.sum_cons]
    omega

/-- Spread light of color `value` from the cell `spot`, as light of `origin`, visiting the
neighbors of a cell in the order `sides`; the chunks entered are added to `imp`. -/
def propagateWith (lightmap : LightMap) (spot : IVec3) (value : LightColor) (imp : HashSet IVec2) :
    LightMap × HashSet IVec2 :=
  let st := Loop.exec (propStep blockat sides origin) (fun st => stackWeight sides st.stack)
    (propStep_decreases blockat sides origin) ⟨[(value, spot)], [spot], lightmap, imp⟩
  (st.lightmap, st.imp)

end

/-- Spread light, visiting the neighbors in the order of the faces. -/
def propagateLightOrigin (blockat : IVec3 → UInt32) (lightmap : LightMap) (spot origin : IVec3)
    (value : LightColor) (imp : HashSet IVec2) : LightMap × HashSet IVec2 :=
  propagateWith blockat CubeSide.all origin lightmap spot value imp

/-! ### The wave of an origin -/

/-- Two cells share a face. -/
def Adjacent (y x : IVec3) : Prop := ∃ side : CubeSide, x = y + side.offset

/-- The wave of a light of color `value` at `origin` reaches `x` in `k` steps. -/
def Reaches (blockat : IVec3 → UInt32) (origin : IVec3) (value : LightColor) (k : ℕ) (x : IVec3) : Prop :=
  Wave.Reach Adjacent (fun k => (value.fadeN k).spreads = true) (fun y => goinghere blockat origin y = true)
    origin k x

/-- The wave of a light of color `value` at `origin` arrives at `x` after `k` steps. -/
def Arrives (blockat : IVec3 → UInt32) (origin : IVec3) (value : LightColor) (k : ℕ) (x : IVec3) : Prop :=
  Wave.Arrive Adjacent (fun k => (value.fadeN k).spreads = true) (fun y => goinghere blockat origin y = true)
    origin k x

/-- The cells found from an origin by following the directions of its rays. -/
inductive Linked (R : IVec3 → Option LightRay) (o : IVec3) : IVec3 → Prop
  /-- The origin itself. -/
  | origin : Linked R o o
  /-- From a cell that is found, the neighbors in its ray's directions. -/
  | step {y : IVec3} {r : LightRay} {side : CubeSide} :
      Linked R o y → R y = some r → side ∈ r.directions → Linked R o (y + side.offset)

/-- Rays with more directions find more. -/
theorem Linked.mono {R R' : IVec3 → Option LightRay} {o x : IVec3}
    (hR : ∀ y r, R y = some r → ∃ r', R' y = some r' ∧ ∀ side ∈ r.directions, side ∈ r'.directions)
    (h : Linked R o x) : Linked R' o x := by
  induction h with
  | origin => exact .origin
  | step _ hy hs ih =>
    obtain ⟨r', hr', hd⟩ := hR _ _ hy
    exact .step ih hr' (hd _ hs)

/-! ### The invariant of the loop -/

section

variable (blockat : IVec3 → UInt32) (origin : IVec3) (value : LightColor)

/-- The cell has a ray at least as bright as `u`, or waits on the stack to get one. -/
def Covered (st : PropState) (x : IVec3) (u : LightColor) : Prop :=
  (∃ r, st.lightmap.ray? origin x = some r ∧ u ≤ r.value) ∨ ∃ v, (v, x) ∈ st.stack ∧ u ≤ v

/-- What holds in every round while the neighbors of a cell are visited. -/
structure Inv (st : PropState) : Prop where
  /-- No cell has two rays of the origin. -/
  single : st.lightmap.Single origin
  /-- A color on the stack is one that the wave brings there. -/
  stackSound : ∀ v x, (v, x) ∈ st.stack → ∃ k, Reaches blockat origin value k x ∧ v = value.fadeN k
  /-- A ray shows a color that the wave brings there. -/
  raySound : ∀ x r, st.lightmap.ray? origin x = some r →
    ∃ k, Reaches blockat origin value k x ∧ r.value = value.fadeN k
  /-- A cell that has been visited is lit, or will be. -/
  visited : ∀ x ∈ st.visited, Covered origin st x LightColor.ZERO
  /-- The origin is lit with its full color, or will be. -/
  source : Covered origin st origin value
  /-- The cells on the stack are found along the recorded directions. -/
  stackLinked : ∀ v x, (v, x) ∈ st.stack → Linked (st.lightmap.ray? origin) origin x
  /-- The lit cells are found along the recorded directions. -/
  rayLinked : ∀ x r, st.lightmap.ray? origin x = some r → Linked (st.lightmap.ray? origin) origin x

/-- The neighbors of every cell from which light spreads are covered. -/
def Closed (st : PropState) : Prop :=
  ∀ x r, st.lightmap.ray? origin x = some r → goinghere blockat origin x = true → r.value.spreads = true →
    ∀ side : CubeSide, Covered origin st (x + side.offset) r.value.fade

variable {blockat origin value}

theorem Covered.mono_value {st : PropState} {x : IVec3} {u u' : LightColor} (hu : u' ≤ u)
    (h : Covered origin st x u) : Covered origin st x u' := by
  rcases h with ⟨r, hr, hle⟩ | ⟨v, hv, hle⟩
  · exact .inl ⟨r, hr, LightColor.le_trans hu hle⟩
  · exact .inr ⟨v, hv, LightColor.le_trans hu hle⟩

/-! ### Visiting the neighbors -/

/-- What visiting a neighbor does: nothing, or one more color on the stack. -/
theorem visitSide_cases (origin : IVec3) (n : LightColor × IVec3) (st : PropState) (side : CubeSide) :
    (visitSide origin n st side = st ∧ n.2 + side.offset ∈ st.visited ∧
      n.1.fade ≤ st.lightmap.existingValue origin (n.2 + side.offset)) ∨
    visitSide origin n st side =
      { st with
        stack := (n.1.fade, n.2 + side.offset) :: st.stack
        visited := st.visited.insert (n.2 + side.offset)
        lightmap := st.lightmap.addDirection n.2 origin side } := by
  unfold visitSide
  dsimp only
  split
  · exact .inr rfl
  · next h =>
    push Not at h
    exact .inl ⟨rfl, h.1, h.2⟩

/-- Visiting a neighbor changes no color. -/
theorem ray?_visitSide (origin : IVec3) (n : LightColor × IVec3) (st : PropState) (side : CubeSide) (x : IVec3) :
    (visitSide origin n st side).lightmap.ray? origin x = st.lightmap.ray? origin x ∨
      (visitSide origin n st side).lightmap.ray? origin x =
        (st.lightmap.ray? origin x).map (withDirection side) := by
  rcases visitSide_cases origin n st side with ⟨h, -⟩ | h
  · exact .inl (by rw [h])
  · rw [h, ray?_addDirection]
    split
    · next hx => subst hx; exact .inr rfl
    · exact .inl rfl

theorem Covered.visitSide {n : LightColor × IVec3} {st : PropState} {x : IVec3} {u : LightColor}
    (h : Covered origin st x u) (side : CubeSide) : Covered origin (visitSide origin n st side) x u := by
  rcases h with ⟨r, hr, hle⟩ | ⟨v, hv, hle⟩
  · rcases ray?_visitSide origin n st side x with hx | hx
    · exact .inl ⟨r, by rw [hx, hr], hle⟩
    · exact .inl ⟨withDirection side r, by rw [hx, hr]; rfl, by simpa using hle⟩
  · refine .inr ⟨v, ?_, hle⟩
    rcases visitSide_cases origin n st side with ⟨h, -⟩ | h
    · rw [h]; exact hv
    · rw [h]; exact List.mem_cons_of_mem _ hv

theorem Linked.visitSide {n : LightColor × IVec3} {st : PropState} {x : IVec3} (side : CubeSide)
    (h : Linked (st.lightmap.ray? origin) origin x) :
    Linked ((visitSide origin n st side).lightmap.ray? origin) origin x := by
  apply h.mono
  intro y r hr
  rcases ray?_visitSide origin n st side y with hy | hy
  · exact ⟨r, by rw [hy, hr], fun _ h => h⟩
  · exact ⟨withDirection side r, by rw [hy, hr]; rfl, fun _ h => mem_withDirection.mpr (.inr h)⟩

/-- A ray after a visit is, but for its directions, a ray before it. -/
theorem ray_before_visitSide {n : LightColor × IVec3} {st : PropState} {side : CubeSide} {x : IVec3} {r : LightRay}
    (h : (visitSide origin n st side).lightmap.ray? origin x = some r) :
    ∃ r', st.lightmap.ray? origin x = some r' ∧ r'.value = r.value := by
  rcases ray?_visitSide origin n st side x with hx | hx
  · exact ⟨r, by rw [← hx, h], rfl⟩
  · rw [hx] at h
    obtain ⟨r', hr', rfl⟩ := Option.map_eq_some_iff.mp h
    exact ⟨r', hr', by simp⟩

theorem Closed.visitSide {n : LightColor × IVec3} {st : PropState} (h : Closed blockat origin st)
    (side : CubeSide) : Closed blockat origin (visitSide origin n st side) := by
  intro x r hr hg hs side'
  obtain ⟨r', hr', hv⟩ := ray_before_visitSide hr
  rw [← hv] at hs ⊢
  exact (h x r' hr' hg hs side').visitSide side

/-- After the visit the neighbor is covered by the faded color. -/
theorem Inv.covered_visitSide {n : LightColor × IVec3} {st : PropState} (h : Inv blockat origin value st)
    (side : CubeSide) : Covered origin (visitSide origin n st side) (n.2 + side.offset) n.1.fade := by
  rcases visitSide_cases origin n st side with ⟨he, hvis, hle⟩ | he
  · rw [he]
    rw [h.single.existingValue_eq] at hle
    cases hr : st.lightmap.ray? origin (n.2 + side.offset) with
    | some r => exact .inl ⟨r, hr, by simpa [hr] using hle⟩
    | none =>
      -- a cell visited but not lit waits on the stack, and nothing is darker than no light
      rcases h.visited _ hvis with ⟨r, hr', -⟩ | ⟨v, hv, -⟩
      · rw [hr] at hr'; cases hr'
      · have hzero : n.1.fade ≤ LightColor.ZERO := by simpa [hr] using hle
        exact .inr ⟨v, hv, LightColor.le_trans hzero (LightColor.zero_le v)⟩
  · rw [he]
    exact .inr ⟨n.1.fade, List.mem_cons_self .., LightColor.le_refl _⟩

/-- Visiting a neighbor keeps the invariant, when the wave passes from the cell with the
color that is spread and the cell is lit. -/
theorem Inv.visitSide {n : LightColor × IVec3} {st : PropState} (h : Inv blockat origin value st)
    (hgo : goinghere blockat origin n.2 = true) (hs : n.1.spreads = true) {k : ℕ}
    (hk : Reaches blockat origin value k n.2) (hv : n.1 = value.fadeN k)
    (hlit : ∃ r, st.lightmap.ray? origin n.2 = some r) (side : CubeSide) :
    Inv blockat origin value (visitSide origin n st side) := by
  rcases visitSide_cases origin n st side with ⟨he, -⟩ | he
  · rw [he]; exact h
  have hlinked : Linked ((Distgard.visitSide origin n st side).lightmap.ray? origin) origin (n.2 + side.offset) := by
    obtain ⟨r, hr⟩ := hlit
    refine .step (r := withDirection side r) ((h.rayLinked _ r hr).visitSide side) ?_
      (mem_withDirection.mpr (.inl rfl))
    rw [he, ray?_addDirection, if_pos rfl, hr]
    rfl
  have hstack : ∀ v x, (v, x) ∈ (Distgard.visitSide origin n st side).stack →
      (v = n.1.fade ∧ x = n.2 + side.offset) ∨ (v, x) ∈ st.stack := by
    intro v x hm
    rw [he] at hm
    rcases List.mem_cons.mp hm with hm | hm
    · cases hm; exact .inl ⟨rfl, rfl⟩
    · exact .inr hm
  constructor
  case single => rw [he]; exact h.single.addDirection n.2 side
  case stackSound =>
    intro v x hm
    rcases hstack v x hm with ⟨rfl, rfl⟩ | hm
    · refine ⟨k + 1, .step hk hgo (by rw [← hv]; exact hs) ⟨side, rfl⟩, ?_⟩
      rw [hv, LightColor.fade_fadeN]
    · exact h.stackSound v x hm
  case raySound =>
    intro x r hr
    obtain ⟨r', hr', hval⟩ := ray_before_visitSide hr
    rw [← hval]
    exact h.raySound x r' hr'
  case visited =>
    intro x hx
    have hx' : x = n.2 + side.offset ∨ x ∈ st.visited := by
      rw [he] at hx
      exact List.mem_insert_iff.mp hx
    rcases hx' with rfl | hx'
    · exact (h.covered_visitSide side).mono_value (LightColor.zero_le _)
    · exact (h.visited x hx').visitSide side
  case source => exact h.source.visitSide side
  case stackLinked =>
    intro v x hm
    rcases hstack v x hm with ⟨rfl, rfl⟩ | hm
    · exact hlinked
    · exact (h.stackLinked v x hm).visitSide side
  case rayLinked =>
    intro x r hr
    obtain ⟨r', hr', -⟩ := ray_before_visitSide hr
    exact (h.rayLinked x r' hr').visitSide side

/-- Visiting all neighbors keeps the invariant and covers each of them. -/
theorem Inv.visitSides {n : LightColor × IVec3} (hgo : goinghere blockat origin n.2 = true)
    (hs : n.1.spreads = true) {k : ℕ} (hk : Reaches blockat origin value k n.2) (hv : n.1 = value.fadeN k)
    (l : List CubeSide) {st : PropState} (h : Inv blockat origin value st)
    (hlit : ∃ r, st.lightmap.ray? origin n.2 = some r) :
    Inv blockat origin value (l.foldl (Distgard.visitSide origin n) st) ∧
      (∀ x u, Covered origin st x u → Covered origin (l.foldl (Distgard.visitSide origin n) st) x u) ∧
      (∀ side ∈ l, Covered origin (l.foldl (Distgard.visitSide origin n) st) (n.2 + side.offset) n.1.fade) ∧
      ∀ x r, (l.foldl (Distgard.visitSide origin n) st).lightmap.ray? origin x = some r →
        ∃ r', st.lightmap.ray? origin x = some r' ∧ r'.value = r.value := by
  induction l generalizing st with
  | nil => exact ⟨h, fun _ _ hc => hc, by simp, fun x r hr => ⟨r, hr, rfl⟩⟩
  | cons side l ih =>
    rw [List.foldl_cons]
    have hlit' : ∃ r, (Distgard.visitSide origin n st side).lightmap.ray? origin n.2 = some r := by
      obtain ⟨r, hr⟩ := hlit
      rcases ray?_visitSide origin n st side n.2 with hx | hx
      · exact ⟨r, by rw [hx, hr]⟩
      · exact ⟨withDirection side r, by rw [hx, hr]; rfl⟩
    obtain ⟨hinv, hmono, hcov, hray⟩ := ih (h.visitSide hgo hs hk hv hlit side) hlit'
    refine ⟨hinv, fun x u hc => hmono x u (hc.visitSide side), ?_, ?_⟩
    · intro side' hside
      rcases List.mem_cons.mp hside with rfl | hside
      · exact hmono _ _ (h.covered_visitSide _)
      · exact hcov side' hside
    · intro x r hr
      obtain ⟨r', hr', hv'⟩ := hray x r hr
      obtain ⟨r'', hr'', hv''⟩ := ray_before_visitSide hr'
      exact ⟨r'', hr'', hv''.trans hv'⟩

/-! ### Popping a color -/

section

variable {st popped : PropState} {n : LightColor × IVec3} {rest : List (LightColor × IVec3)}
  (hst : st.stack = n :: rest) (hstack : popped.stack = rest) (hvis : popped.visited = st.visited)
  (hlm : popped.lightmap = st.lightmap.shine n.2 origin n.1)

include hlm

theorem ray?_popped (x : IVec3) : popped.lightmap.ray? origin x =
    if x = n.2 then some (brighten origin n.1 (st.lightmap.ray? origin n.2)) else st.lightmap.ray? origin x := by
  rw [hlm, ray?_shine]

/-- Popping a color only brightens, and adds no direction less. -/
theorem ray_after_popped {x : IVec3} {r : LightRay} (h : st.lightmap.ray? origin x = some r) :
    ∃ r', popped.lightmap.ray? origin x = some r' ∧ r.value ≤ r'.value ∧ r'.directions = r.directions := by
  rw [ray?_popped hlm]
  split
  · next hx =>
    subst hx
    rw [h]
    exact ⟨_, rfl, LightColor.le_sup_left _ _, rfl⟩
  · exact ⟨r, h, LightColor.le_refl _, rfl⟩

theorem Linked.pop {x : IVec3} (h : Linked (st.lightmap.ray? origin) origin x) :
    Linked (popped.lightmap.ray? origin) origin x := by
  apply h.mono
  intro y r hr
  obtain ⟨r', hr', -, hd⟩ := ray_after_popped hlm hr
  exact ⟨r', hr', fun side hs => hd ▸ hs⟩

include hst

/-- The ray in the cell of the popped color shows that color, or shows what it showed. -/
theorem Inv.ray_popped (h : Inv blockat origin value st) {x : IVec3} {r : LightRay}
    (hr : popped.lightmap.ray? origin x = some r) :
    (x = n.2 ∧ r.value = n.1) ∨ ∃ r', st.lightmap.ray? origin x = some r' ∧ r'.value = r.value := by
  rw [ray?_popped hlm] at hr
  split at hr
  · next hx =>
    subst hx
    cases Option.some.inj hr
    cases hr' : st.lightmap.ray? origin n.2 with
    | none => exact .inl ⟨rfl, rfl⟩
    | some r' =>
      -- both are colors of one light, so the brighter of them is one of them
      obtain ⟨j, -, hj⟩ := h.raySound _ _ hr'
      obtain ⟨k, -, hk⟩ := h.stackSound n.1 n.2 (by rw [hst]; exact List.mem_cons_self ..)
      rcases Nat.le_total j k with hjk | hjk
      · refine .inr ⟨r', rfl, ?_⟩
        simp only [brighten]
        rw [hj, hk, LightColor.sup_fadeN, Nat.min_eq_left hjk]
      · refine .inl ⟨rfl, ?_⟩
        simp only [brighten]
        rw [hj, hk, LightColor.sup_fadeN, Nat.min_eq_right hjk]
  · exact .inr ⟨r, hr, rfl⟩

include hstack

/-- The color popped now shines: no cell is covered any less. -/
theorem Covered.pop {x : IVec3} {u : LightColor} (h : Covered origin st x u) : Covered origin popped x u := by
  rcases h with ⟨r, hr, hle⟩ | ⟨v, hv, hle⟩
  · obtain ⟨r', hr', hle', -⟩ := ray_after_popped hlm hr
    exact .inl ⟨r', hr', LightColor.le_trans hle hle'⟩
  · rw [hst] at hv
    rcases List.mem_cons.mp hv with rfl | hv
    · refine .inl ⟨brighten origin v (st.lightmap.ray? origin x), by rw [ray?_popped hlm, if_pos rfl], ?_⟩
      refine LightColor.le_trans hle ?_
      cases st.lightmap.ray? origin x with
      | none => exact LightColor.le_refl _
      | some r => exact LightColor.le_sup_right _ _
    · exact .inr ⟨v, hstack ▸ hv, hle⟩

include hvis

/-- Popping a color keeps the invariant. -/
theorem Inv.pop (h : Inv blockat origin value st) : Inv blockat origin value popped := by
  have hmem : ∀ v x, (v, x) ∈ popped.stack → (v, x) ∈ st.stack := fun v x hm => by
    rw [hst]
    exact List.mem_cons_of_mem _ (hstack ▸ hm)
  constructor
  case single => rw [hlm]; exact h.single.shine n.2 n.1
  case stackSound => exact fun v x hm => h.stackSound v x (hmem v x hm)
  case raySound =>
    intro x r hr
    rcases h.ray_popped hst hlm hr with ⟨rfl, hv⟩ | ⟨r', hr', hv⟩
    · rw [hv]
      exact h.stackSound n.1 n.2 (by rw [hst]; exact List.mem_cons_self ..)
    · rw [← hv]
      exact h.raySound x r' hr'
  case visited => exact fun x hx => (h.visited x (hvis ▸ hx)).pop hst hstack hlm
  case source => exact h.source.pop hst hstack hlm
  case stackLinked => exact fun v x hm => (h.stackLinked v x (hmem v x hm)).pop hlm
  case rayLinked =>
    intro x r hr
    rcases h.ray_popped hst hlm hr with ⟨rfl, -⟩ | ⟨r', hr', -⟩
    · exact (h.stackLinked n.1 n.2 (by rw [hst]; exact List.mem_cons_self ..)).pop hlm
    · exact (h.rayLinked x r' hr').pop hlm

end

/-- **A round keeps the invariant**, and keeps every neighbor of a spreading cell covered. -/
theorem Inv.step {sides : List CubeSide} (hall : ∀ side, side ∈ sides) {st st' : PropState}
    (h : Inv blockat origin value st ∧ Closed blockat origin st) (hs : propStep blockat sides origin st = some st') :
    Inv blockat origin value st' ∧ Closed blockat origin st' := by
  obtain ⟨hinv, hclosed⟩ := h
  obtain ⟨n, rest, popped, hst, hstack, hvis, hlm, hcase⟩ := propStep_cases blockat sides origin hs
  have hinv' := hinv.pop hst hstack hvis hlm
  -- only the cell of the popped color may have neighbors that are not covered yet
  have hrest : ∀ x r, popped.lightmap.ray? origin x = some r → goinghere blockat origin x = true →
      r.value.spreads = true → (x = n.2 ∧ r.value = n.1) ∨
        ∀ side : CubeSide, Covered origin popped (x + side.offset) r.value.fade := by
    intro x r hr hg hsp
    rcases hinv.ray_popped hst hlm hr with hx | ⟨r', hr', hv⟩
    · exact .inl hx
    · rw [← hv] at hsp ⊢
      exact .inr fun side => (hclosed x r' hr' hg hsp side).pop hst hstack hlm
  obtain ⟨k, hk, hv⟩ := hinv.stackSound n.1 n.2 (by rw [hst]; exact List.mem_cons_self ..)
  rcases hcase with ⟨hgo, hsp, rfl⟩ | ⟨hstop, rfl⟩
  · have hlit : ∃ r, popped.lightmap.ray? origin n.2 = some r := ⟨_, by rw [ray?_popped hlm, if_pos rfl]⟩
    obtain ⟨hinv'', hmono, hcov, hray⟩ := hinv'.visitSides hgo hsp hk hv sides hlit
    refine ⟨hinv'', ?_⟩
    intro x r hr hg hsp' side
    obtain ⟨r', hr', hval⟩ := hray x r hr
    rw [← hval] at hsp' ⊢
    rcases hrest x r' hr' hg hsp' with ⟨rfl, hn⟩ | hc
    · rw [hn]
      exact hcov side (hall side)
    · exact hmono _ _ (hc side)
  · refine ⟨hinv', ?_⟩
    intro x r hr hg hsp side
    rcases hrest x r hr hg hsp with ⟨rfl, hn⟩ | hc
    · rw [hn, hstop hg] at hsp
      cases hsp
    · exact hc side

/-- With nothing left on the stack, every color the wave brings is shown, or a brighter one. -/
theorem Inv.lit_of_reaches {st : PropState} (h : Inv blockat origin value st) (hc : Closed blockat origin st)
    (hnil : st.stack = []) {k : ℕ} {x : IVec3} (hk : Reaches blockat origin value k x) :
    ∃ r, st.lightmap.ray? origin x = some r ∧ value.fadeN k ≤ r.value := by
  have hcov : ∀ x u, Covered origin st x u → ∃ r, st.lightmap.ray? origin x = some r ∧ u ≤ r.value := by
    rintro x u (hr | ⟨v, hv, -⟩)
    · exact hr
    · rw [hnil] at hv
      cases hv
  induction hk with
  | start => simpa using hcov _ _ h.source
  | @step k y x _ hpass halive hadj ih =>
    obtain ⟨r, hr, hle⟩ := ih
    obtain ⟨side, rfl⟩ := hadj
    obtain ⟨r', hr', hle'⟩ := hcov _ _ (hc y r hr hpass (LightColor.spreads_mono hle halive) side)
    refine ⟨r', hr', LightColor.le_trans ?_ hle'⟩
    rw [← LightColor.fade_fadeN]
    exact LightColor.fade_mono hle

end

/-! ### What the whole loop does -/

section

variable {blockat : IVec3 → UInt32} {sides : List CubeSide} {origin : IVec3} {lm : LightMap} {value : LightColor}
  {imp : HashSet IVec2}

/-- **Frame**: the rays of every other origin stay as they were. -/
theorem propagate_frame (blockat : IVec3 → UInt32) (sides : List CubeSide) (origin : IVec3) (lm : LightMap)
    (spot : IVec3) (value : LightColor) (imp : HashSet IVec2) (x : IVec3) :
    (propagateWith blockat sides origin lm spot value imp).1.others origin x = lm.others origin x := by
  refine (Loop.exec_induct (propStep_decreases blockat sides origin)
    (I := fun st => st.lightmap.others origin x = lm.others origin x) ?_ rfl).1
  intro st st' hI hs
  obtain ⟨n, rest, popped, -, -, -, hlm, hcase⟩ := propStep_cases blockat sides origin hs
  have hp : popped.lightmap.others origin x = lm.others origin x := by rw [hlm, others_shine, hI]
  rcases hcase with ⟨-, -, rfl⟩ | ⟨-, rfl⟩
  · have hfold : ∀ (l : List CubeSide) (st : PropState),
        (l.foldl (visitSide origin n) st).lightmap.others origin x = st.lightmap.others origin x := by
      intro l
      induction l with
      | nil => exact fun _ => rfl
      | cons side l ih =>
        intro st
        rw [List.foldl_cons, ih]
        rcases visitSide_cases origin n st side with ⟨he, -⟩ | he
        · rw [he]
        · rw [he, others_addDirection]
    rw [hfold, hp]
  · exact hp

/-- Two states of the loop that differ at most in the light of other origins. -/
structure SameOwn (origin : IVec3) (st st' : PropState) : Prop where
  /-- The stacks. -/
  stack : st'.stack = st.stack
  /-- The cells visited. -/
  visited : st'.visited = st.visited
  /-- The rays of the origin. -/
  own : ∀ x, st'.lightmap.own origin x = st.lightmap.own origin x

theorem SameOwn.visitSide {st st' : PropState} (h : SameOwn origin st st') (n : LightColor × IVec3)
    (side : CubeSide) : SameOwn origin (visitSide origin n st side) (visitSide origin n st' side) := by
  have hray : st'.lightmap.ray? origin n.2 = st.lightmap.ray? origin n.2 := by rw [ray?, ray?, h.own]
  unfold Distgard.visitSide
  simp only [existingValue_eq_foldl_own, h.own, h.visited, h.stack]
  split
  · refine ⟨rfl, rfl, ?_⟩
    intro x
    rw [own_addDirection, own_addDirection, hray, h.own, h.own]
  · exact h

theorem SameOwn.visitSides {st st' : PropState} (h : SameOwn origin st st') (n : LightColor × IVec3)
    (l : List CubeSide) : SameOwn origin (l.foldl (Distgard.visitSide origin n) st)
      (l.foldl (Distgard.visitSide origin n) st') := by
  induction l generalizing st st' with
  | nil => exact h
  | cons side l ih => exact ih (h.visitSide n side)

theorem SameOwn.shone {st st' : PropState} (h : SameOwn origin st st') (n : LightColor × IVec3)
    (rest : List (LightColor × IVec3)) : SameOwn origin (st.shone origin n rest) (st'.shone origin n rest) := by
  have hray : st'.lightmap.ray? origin n.2 = st.lightmap.ray? origin n.2 := by rw [ray?, ray?, h.own]
  refine ⟨rfl, h.visited, ?_⟩
  intro x
  simp only [PropState.shone]
  rw [own_shine, own_shine, hray, h.own, h.own]

/-- A round looks at the light of other origins nowhere. -/
theorem SameOwn.step {st st' : PropState} (h : SameOwn origin st st') {st₁ : PropState}
    (hs : propStep blockat sides origin st = some st₁) :
    ∃ st₂, propStep blockat sides origin st' = some st₂ ∧ SameOwn origin st₁ st₂ := by
  have hentered : ∀ n rest, SameOwn origin ((st.shone origin n rest).entered origin n.2)
      ((st'.shone origin n rest).entered origin n.2) := fun n rest =>
    ⟨(h.shone n rest).stack, (h.shone n rest).visited, (h.shone n rest).own⟩
  unfold propStep at hs ⊢
  rw [h.stack]
  match hst : st.stack with
  | [] => rw [hst] at hs; cases hs
  | n :: rest =>
    rw [hst] at hs
    simp only at hs ⊢
    split at hs
    · next hg =>
      rw [if_pos hg]
      split at hs
      · next hsp =>
        rw [if_pos hsp]
        cases hs
        exact ⟨_, rfl, (hentered n rest).visitSides n sides⟩
      · next hsp =>
        rw [if_neg hsp]
        cases hs
        exact ⟨_, rfl, hentered n rest⟩
    · next hg =>
      rw [if_neg hg]
      cases hs
      exact ⟨_, rfl, h.shone n rest⟩

/-- The rays of the origin come out the same, directions and all, whatever light of other
origins there is. -/
theorem propagate_own_congr (blockat : IVec3 → UInt32) (sides : List CubeSide) (spot : IVec3) (value : LightColor)
    (imp imp' : HashSet IVec2) {lm lm' : LightMap} (h : ∀ x, lm'.own origin x = lm.own origin x) (x : IVec3) :
    (propagateWith blockat sides origin lm' spot value imp').1.own origin x =
      (propagateWith blockat sides origin lm spot value imp).1.own origin x := by
  refine (Loop.exec_rel (propStep_decreases blockat sides origin) (propStep_decreases blockat sides origin)
    (R := SameOwn origin) (fun st st' hst hnone => ?_) (fun st st' st₁ hst hs => hst.step hs)
    (⟨rfl, rfl, h⟩ : SameOwn origin ⟨[(value, spot)], [spot], lm, imp⟩ ⟨[(value, spot)], [spot], lm', imp'⟩)).own x
  have hnil := stack_eq_nil_of_propStep blockat sides origin hnone
  unfold propStep
  rw [hst.stack, hnil]

/-- The loop starts with its invariant. -/
theorem inv_start (blockat : IVec3 → UInt32) (value : LightColor) (imp : HashSet IVec2)
    (hlm : ∀ x, lm.ray? origin x = none) :
    Inv blockat origin value ⟨[(value, origin)], [origin], lm, imp⟩ ∧
      Closed blockat origin ⟨[(value, origin)], [origin], lm, imp⟩ := by
  refine ⟨⟨?_, ?_, ?_, ?_, ?_, ?_, ?_⟩, fun x r hr => by rw [hlm x] at hr; cases hr⟩
  · intro x
    rw [ray?_eq_none_iff.mp (hlm x)]
    exact Nat.zero_le 1
  · intro v x hm
    cases List.mem_singleton.mp hm
    exact ⟨0, .start, by simp⟩
  · intro x r hr
    rw [hlm x] at hr
    cases hr
  · intro x hx
    cases List.mem_singleton.mp hx
    exact .inr ⟨value, List.mem_singleton.mpr rfl, LightColor.zero_le _⟩
  · exact .inr ⟨value, List.mem_singleton.mpr rfl, LightColor.le_refl _⟩
  · intro v x hm
    cases List.mem_singleton.mp hm
    exact .origin
  · intro x r hr
    rw [hlm x] at hr
    cases hr

/-- The loop ends with its invariant, nothing left to do. -/
theorem propagate_inv (blockat : IVec3 → UInt32) (value : LightColor) (imp : HashSet IVec2)
    (hall : ∀ side, side ∈ sides) (hlm : ∀ x, lm.ray? origin x = none) :
    ∃ st : PropState, st.lightmap = (propagateWith blockat sides origin lm origin value imp).1 ∧ st.stack = [] ∧
      Inv blockat origin value st ∧ Closed blockat origin st := by
  obtain ⟨⟨hinv, hclosed⟩, hnone⟩ := Loop.exec_induct (propStep_decreases blockat sides origin)
    (I := fun st => Inv blockat origin value st ∧ Closed blockat origin st) (fun _ _ => Inv.step hall)
    (inv_start blockat value imp hlm)
  exact ⟨_, rfl, stack_eq_nil_of_propStep blockat sides origin hnone, hinv, hclosed⟩

/-- **The light is the wave**: from a lightmap without rays of the origin, a cell has a ray
of the origin with color `v` exactly when the wave arrives there with that color. -/
theorem propagate_arrive (hall : ∀ side, side ∈ sides) (hlm : ∀ x, lm.ray? origin x = none) (x : IVec3)
    (v : LightColor) :
    (∃ r, (propagateWith blockat sides origin lm origin value imp).1.ray? origin x = some r ∧ r.value = v) ↔
      ∃ k, Arrives blockat origin value k x ∧ v = value.fadeN k := by
  obtain ⟨st, hst, hnil, hinv, hclosed⟩ := propagate_inv blockat value imp hall hlm
  rw [← hst]
  constructor
  · rintro ⟨r, hr, rfl⟩
    obtain ⟨k, hk, hv⟩ := hinv.raySound x r hr
    obtain ⟨j, hjk, hj⟩ := Wave.Reach.exists_arrive hk
    obtain ⟨r', hr', hle⟩ := hinv.lit_of_reaches hclosed hnil hj.reach
    rw [hr] at hr'
    cases hr'
    -- the color shown is no darker than the wave's at its arrival, and no brighter
    exact ⟨j, hj, LightColor.le_antisymm (hv ▸ LightColor.fadeN_anti value hjk) hle⟩
  · rintro ⟨k, hk, rfl⟩
    obtain ⟨r, hr, hle⟩ := hinv.lit_of_reaches hclosed hnil hk.reach
    obtain ⟨j, hj, hv⟩ := hinv.raySound x r hr
    refine ⟨r, hr, LightColor.le_antisymm ?_ hle⟩
    rw [hv]
    exact LightColor.fadeN_anti value (hk.2 j hj)

/-- A cell has one ray of the origin at most. -/
theorem propagate_single (hall : ∀ side, side ∈ sides) (hlm : ∀ x, lm.ray? origin x = none) :
    (propagateWith blockat sides origin lm origin value imp).1.Single origin := by
  obtain ⟨st, hst, -, hinv, -⟩ := propagate_inv blockat value imp hall hlm
  exact hst ▸ hinv.single

/-- Every lit cell is found from the origin along the recorded directions. -/
theorem propagate_linked (hall : ∀ side, side ∈ sides) (hlm : ∀ x, lm.ray? origin x = none) {x : IVec3}
    {r : LightRay} (hr : (propagateWith blockat sides origin lm origin value imp).1.ray? origin x = some r) :
    Linked ((propagateWith blockat sides origin lm origin value imp).1.ray? origin) origin x := by
  obtain ⟨st, hst, -, hinv, -⟩ := propagate_inv blockat value imp hall hlm
  rw [← hst] at hr ⊢
  exact hinv.rayLinked x r hr

end

end Distgard
