import Distgard.Lib.Run
import Mathlib.Logic.Function.Basic

/-!
# Monitors

Threads share a state. Now and then a thread takes a lock and runs a section, a list of actions,
one action at a time; between two of its actions those of other threads happen, and steps of the
system itself. An action can fail, and ends its thread, which lets go of the lock.

A lock guards keys. The view of a key is what can be seen of it in the state: actions under
another lock leave it alone, and what an action under its own lock makes of it depends on it
alone (`Guards`).

`settled` is the rule the proofs use: a property of the views that every section keeps
when it runs alone holds, in every state that is reached, of each key whose lock is free.
-/

namespace Distgard.Lib

/-- A shared state, and the sections that are running. -/
structure Monitor (σ α L T : Type*) where
  /-- The state. -/
  shared : σ
  /-- The locks that threads hold, and the actions that remain for them. -/
  running : T → Option (L × List α)

namespace Monitor

variable {σ α L T K W : Type*} [DecidableEq T]

/-- A thread holds the lock. -/
def Held (m : Monitor σ α L T) (l : L) : Prop := ∃ t as, m.running t = some (l, as)

/-- What can happen: the sections that are offered begin, go on, fail and end, and the system
takes steps of its own. -/
inductive Step (act : α → σ → Option σ) (offers : T → L → List α → Prop) (own : σ → σ → Prop) :
    Monitor σ α L T → Monitor σ α L T → Prop
  /-- A thread takes a free lock, and begins a section. -/
  | enter {m : Monitor σ α L T} {t : T} {l : L} {as : List α} : m.running t = none → ¬ m.Held l → offers t l as →
      Step act offers own m ⟨m.shared, Function.update m.running t (some (l, as))⟩
  /-- A thread does its next action. -/
  | act {m : Monitor σ α L T} {t : T} {l : L} {a : α} {as : List α} {s : σ} : m.running t = some (l, a :: as) →
      act a m.shared = some s → Step act offers own m ⟨s, Function.update m.running t (some (l, as))⟩
  /-- An action fails, and ends its thread. -/
  | fail {m : Monitor σ α L T} {t : T} {l : L} {a : α} {as : List α} : m.running t = some (l, a :: as) →
      act a m.shared = none → Step act offers own m ⟨m.shared, Function.update m.running t none⟩
  /-- A section is over. -/
  | leave {m : Monitor σ α L T} {t : T} {l : L} : m.running t = some (l, []) →
      Step act offers own m ⟨m.shared, Function.update m.running t none⟩
  /-- The system takes a step of its own. -/
  | own {m : Monitor σ α L T} {s : σ} : own m.shared s → Step act offers own m ⟨s, m.running⟩

/-- What a section makes of a view when it runs alone. -/
def alone (effect : α → W → Option W) : List α → W → W
  | [], w => w
  | a :: as, w => match effect a w with
    | some w' => alone effect as w'
    | none => w

/-- **The locks guard the keys**: what can be seen of a key changes under its lock only, in a
way that depends on it alone, and each section that is offered keeps the property. -/
structure Guards (act : α → σ → Option σ) (offers : T → L → List α → Prop) (own : σ → σ → Prop) (lockOf : K → L)
    (view : K → σ → W) (under : L → α → Prop) (effect : K → α → W → Option W) (P : K → W → Prop) : Prop where
  /-- An action does to a key of its lock what it does to the view. -/
  acts : ∀ {k a s}, under (lockOf k) a → (act a s).map (view k) = effect k a (view k s)
  /-- An action leaves the keys of other locks alone. -/
  frame : ∀ {k l a s s'}, under l a → lockOf k ≠ l → act a s = some s' → view k s' = view k s
  /-- So do the system's own steps. -/
  owns : ∀ {k s s'}, own s s' → view k s' = view k s
  /-- A section consists of actions under its lock. -/
  sections : ∀ {t l as}, offers t l as → ∀ a ∈ as, under l a
  /-- A section keeps the property. -/
  keeps : ∀ {k t as w}, offers t (lockOf k) as → P k w → P k (alone (effect k) as w)

/-- The invariant: sections end well. -/
structure Inv (lockOf : K → L) (view : K → σ → W) (under : L → α → Prop) (effect : K → α → W → Option W)
    (P : K → W → Prop) (m : Monitor σ α L T) : Prop where
  /-- No two threads hold one lock. -/
  exclusive : ∀ {t t' l as as'}, m.running t = some (l, as) → m.running t' = some (l, as') → t = t'
  /-- What remains of a section is under its lock. -/
  under : ∀ {t l as}, m.running t = some (l, as) → ∀ a ∈ as, under l a
  /-- The keys of a lock that is held have the property once its section is over. -/
  held : ∀ {t k as}, m.running t = some (lockOf k, as) → P k (alone (effect k) as (view k m.shared))
  /-- The keys of a free lock have it. -/
  free : ∀ {k}, ¬ m.Held (lockOf k) → P k (view k m.shared)

variable {act : α → σ → Option σ} {offers : T → L → List α → Prop} {own : σ → σ → Prop} {lockOf : K → L}
  {view : K → σ → W} {under : L → α → Prop} {effect : K → α → W → Option W} {P : K → W → Prop}
  {m m' : Monitor σ α L T}

/-! ### Sections that run alone -/

omit [DecidableEq T] in
/-- A section that runs alone does to a key of its lock what it does to the view. -/
theorem Guards.view_alone (hg : Guards act offers own lockOf view under effect P) {k : K} {as : List α}
    (has : ∀ a ∈ as, under (lockOf k) a) (s : σ) : view k (alone act as s) = alone (effect k) as (view k s) := by
  induction as generalizing s with
  | nil => rfl
  | cons a as ih =>
    have hact := hg.acts (s := s) (has a (List.mem_cons_self ..))
    rw [alone, alone, ← hact]
    cases act a s with
    | none => rfl
    | some s' => exact ih (fun b hb => has b (List.mem_cons_of_mem a hb)) s'

omit [DecidableEq T] in
/-- It leaves the keys of other locks alone. -/
theorem Guards.view_alone_of_ne (hg : Guards act offers own lockOf view under effect P) {k : K} {l : L} {as : List α}
    (has : ∀ a ∈ as, under l a) (hne : lockOf k ≠ l) (s : σ) : view k (alone act as s) = view k s := by
  induction as generalizing s with
  | nil => rfl
  | cons a as ih =>
    rw [alone]
    cases hact : act a s with
    | none => rfl
    | some s' =>
      exact (ih (fun b hb => has b (List.mem_cons_of_mem a hb)) s').trans
        (hg.frame (has a (List.mem_cons_self ..)) hne hact)

/-- No other thread holds the lock. -/
def NotElse (m : Monitor σ α L T) (t : T) (l : L) : Prop := ∀ t' as, t' ≠ t → m.running t' ≠ some (l, as)

theorem not_held {t : T} {l : L} (hothers : m.NotElse t l) (ht : ∀ as, m.running t ≠ some (l, as)) : ¬ m.Held l := by
  rintro ⟨t', as, h⟩
  by_cases htt : t' = t
  · subst htt
    exact ht as h
  · exact hothers t' as htt h

theorem update_eq_some {running : T → Option (L × List α)} {t t' : T} {o : Option (L × List α)} {x : L × List α}
    (h : Function.update running t o t' = some x) : (t' = t ∧ o = some x) ∨ (t' ≠ t ∧ running t' = some x) := by
  by_cases ht : t' = t
  · subst ht
    rw [Function.update_self] at h
    exact .inl ⟨rfl, h⟩
  · rw [Function.update_of_ne ht] at h
    exact .inr ⟨ht, h⟩

/-- One thread goes on, or stops. -/
theorem Inv.put (h : Inv lockOf view under effect P m) (t : T) {s : σ} {o : Option (L × List α)}
    (hmine : ∀ l as, o = some (l, as) → m.NotElse t l ∧ (∀ a ∈ as, under l a) ∧
      ∀ k, lockOf k = l → P k (alone (effect k) as (view k s)))
    (hothers : ∀ k t' as, t' ≠ t → m.running t' = some (lockOf k, as) → view k s = view k m.shared)
    (hfree : ∀ k, m.NotElse t (lockOf k) → (∀ as, o ≠ some (lockOf k, as)) → P k (view k s)) :
    Inv lockOf view under effect P ⟨s, Function.update m.running t o⟩ := by
  refine ⟨?_, ?_, ?_, ?_⟩
  · intro t₁ t₂ l as₁ as₂ h₁ h₂
    rcases update_eq_some h₁ with ⟨rfl, ho₁⟩ | ⟨hne₁, ho₁⟩ <;> rcases update_eq_some h₂ with ⟨rfl, ho₂⟩ | ⟨hne₂, ho₂⟩
    · rfl
    · exact absurd ho₂ ((hmine l as₁ ho₁).1 t₂ as₂ hne₂)
    · exact absurd ho₁ ((hmine l as₂ ho₂).1 t₁ as₁ hne₁)
    · exact h.exclusive ho₁ ho₂
  · intro t' l as h'
    rcases update_eq_some h' with ⟨rfl, ho⟩ | ⟨-, ho⟩
    · exact (hmine l as ho).2.1
    · exact h.under ho
  · intro t' k as h'
    rcases update_eq_some h' with ⟨rfl, ho⟩ | ⟨hne, ho⟩
    · exact (hmine _ as ho).2.2 k rfl
    · show P k (alone (effect k) as (view k s))
      rw [hothers k t' as hne ho]
      exact h.held ho
  · intro k hk
    exact hfree k (fun t' as hne h' => hk ⟨t', as, (Function.update_of_ne hne ..).trans h'⟩)
      fun as ho => hk ⟨t, as, (Function.update_self ..).trans ho⟩

/-- A thread lets go of its lock, the keys of which have the property. -/
theorem Inv.release (h : Inv lockOf view under effect P m) {t : T} {l : L} {as : List α}
    (ht : m.running t = some (l, as)) (hP : ∀ k, lockOf k = l → P k (view k m.shared)) :
    Inv lockOf view under effect P ⟨m.shared, Function.update m.running t none⟩ := by
  refine h.put t (fun _ _ ho => nomatch ho) (fun _ _ _ _ _ => rfl) ?_
  intro k hothers _
  by_cases hl : lockOf k = l
  · exact hP k hl
  · refine h.free (not_held hothers fun as' ht' => hl ?_)
    rw [ht, Option.some.injEq, Prod.mk.injEq] at ht'
    exact ht'.1.symm

/-- **One step** keeps the invariant. -/
theorem Inv.step (hg : Guards act offers own lockOf view under effect P) (h : Inv lockOf view under effect P m)
    (hstep : Step act offers own m m') : Inv lockOf view under effect P m' := by
  cases hstep with
  | @enter t l as ht hfree hoffers =>
    refine h.put t ?_ (fun _ _ _ _ _ => rfl) ?_
    · rintro _ _ ⟨⟩
      refine ⟨fun t' as' _ h' => hfree ⟨t', as', h'⟩, hg.sections hoffers, ?_⟩
      rintro k rfl
      exact hg.keeps hoffers (h.free hfree)
    · intro k hothers _
      exact h.free (not_held hothers fun as' h' => by rw [ht] at h'; cases h')
  | @act t l a as s ht hact =>
    have hunder := h.under ht
    have hframe : ∀ k, lockOf k ≠ l → view k s = view k m.shared := fun k hk =>
      hg.frame (hunder a (List.mem_cons_self ..)) hk hact
    refine h.put t ?_ ?_ ?_
    · rintro _ _ ⟨⟩
      refine ⟨fun t' as' hne h' => hne (h.exclusive h' ht), fun b hb => hunder b (List.mem_cons_of_mem a hb), ?_⟩
      rintro k rfl
      have heffect := hg.acts (s := m.shared) (hunder a (List.mem_cons_self ..))
      have hheld := h.held ht
      rw [hact, Option.map_some] at heffect
      rw [alone, ← heffect] at hheld
      exact hheld
    · intro k t' as' hne h'
      refine hframe k ?_
      rintro rfl
      exact hne (h.exclusive h' ht)
    · intro k hothers hk
      have hl : lockOf k ≠ l := by
        rintro rfl
        exact hk as rfl
      rw [hframe k hl]
      refine h.free (not_held hothers fun as' h' => hl ?_)
      rw [ht, Option.some.injEq, Prod.mk.injEq] at h'
      exact h'.1.symm
  | @fail t l a as ht hact =>
    refine h.release ht ?_
    rintro k rfl
    have heffect := hg.acts (s := m.shared) (h.under ht a (List.mem_cons_self ..))
    have hheld := h.held ht
    rw [hact, Option.map_none] at heffect
    rw [alone, ← heffect] at hheld
    exact hheld
  | @leave t l ht =>
    refine h.release ht ?_
    rintro k rfl
    exact h.held ht
  | @own s hs =>
    refine ⟨h.exclusive, h.under, ?_, ?_⟩
    · intro t k as h'
      rw [hg.owns hs]
      exact h.held h'
    · intro k hk
      rw [hg.owns hs]
      exact h.free hk

omit [DecidableEq T] in
/-- Something else happens to the state, which leaves a key alone, or has its lock to itself and
keeps the property, or whatever it does has it. -/
theorem Inv.disturb (h : Inv lockOf view under effect P m) {s : σ}
    (hs : ∀ k, view k s = view k m.shared ∨ (¬ m.Held (lockOf k) ∧ P k (view k s)) ∨ ∀ w, P k w) :
    Inv lockOf view under effect P ⟨s, m.running⟩ := by
  refine ⟨h.exclusive, h.under, ?_, ?_⟩
  · intro t k as h'
    rcases hs k with hsame | ⟨hfree, -⟩ | hall
    · show P k (alone (effect k) as (view k s))
      rw [hsame]
      exact h.held h'
    · exact absurd ⟨t, as, h'⟩ hfree
    · exact hall _
  · intro k hk
    rcases hs k with hsame | ⟨-, hP⟩ | hall
    · show P k (view k s)
      rw [hsame]
      exact h.free hk
    · exact hP
    · exact hall _

omit [DecidableEq T] in
/-- No section is running, and every key has the property. -/
theorem Inv.start (hidle : ∀ t, m.running t = none) (hP : ∀ k, P k (view k m.shared)) :
    Inv lockOf view under effect P m := by
  have hnone : ∀ {t x}, m.running t ≠ some x := fun {t} {x} h => by rw [hidle t] at h; cases h
  exact ⟨fun h => absurd h hnone, fun h => absurd h hnone, fun h => absurd h hnone, fun _ => hP _⟩

/-- **The rule for monitors**: what every section keeps when it runs alone holds of each key whose
lock is free. -/
theorem settled {start : Monitor σ α L T → Prop} (hg : Guards act offers own lockOf view under effect P)
    (hstart : ∀ m, start m → (∀ t, m.running t = none) ∧ ∀ k, P k (view k m.shared))
    (h : Reached start (fun _ _ => True) (fun m (_ : Unit) m' => Step act offers own m m') m) {k : K}
    (hfree : ¬ m.Held (lockOf k)) : P k (view k m.shared) :=
  (h.invariant (fun m hm => Inv.start (hstart m hm).1 (hstart m hm).2) fun _ _ _ hinv _ hstep => hinv.step hg hstep).free
    hfree

end Monitor

end Distgard.Lib
