import Mathlib.Logic.Basic

/-!
# Runs of allowed events

A system has initial states, and events that lead from state to state. An event may be
allowed in some states and not in others. `Reached` are the states of the runs in which each
event is allowed where it happens.

`Reached.invariant` is the rule the proofs use: what holds initially and is kept by every
event that is allowed where it happens holds in every state reached. Where events can be
computed, `play` computes a run.
-/

namespace Distgard.Lib

/-- The states of the runs of allowed events. -/
inductive Reached {σ ε : Type*} (initial : σ → Prop) (allowed : σ → ε → Prop) (happens : σ → ε → σ → Prop) : σ → Prop
  /-- A run starts in an initial state. -/
  | start {s : σ} : initial s → Reached initial allowed happens s
  /-- An allowed event happens. -/
  | step {s s' : σ} (event : ε) : Reached initial allowed happens s → allowed s event → happens s event s' →
      Reached initial allowed happens s'

variable {σ ε : Type*} {initial : σ → Prop} {allowed : σ → ε → Prop} {happens : σ → ε → σ → Prop}

/-- **What every allowed event keeps** holds in every state reached. -/
theorem Reached.invariant {inv : σ → Prop} {s : σ} (h : Reached initial allowed happens s)
    (hinitial : ∀ s, initial s → inv s)
    (hstep : ∀ s s' event, inv s → allowed s event → happens s event s' → inv s') : inv s := by
  induction h with
  | start hs => exact hinitial _ hs
  | step event _ hallowed hhappens ih => exact hstep _ _ event ih hallowed hhappens

/-- Where more is allowed, what was reached is reached. -/
theorem Reached.mono {allowed' : σ → ε → Prop} {s : σ} (h : Reached initial allowed happens s)
    (hmono : ∀ s event, allowed s event → allowed' s event) : Reached initial allowed' happens s := by
  induction h with
  | start hs => exact .start hs
  | step event _ hallowed hhappens ih => exact ih.step event (hmono _ _ hallowed) hhappens

/-- A run can go on with one that starts where it has led. -/
theorem Reached.trans {s s' : σ} (h : Reached initial allowed happens s) (h' : Reached (· = s) allowed happens s') :
    Reached initial allowed happens s' := by
  induction h' with
  | start hs =>
    subst hs
    exact h
  | step event _ hallowed hhappens ih => exact ih.step event hallowed hhappens

/-- Let events happen one after the other, as long as each is allowed and can happen. -/
def play (allowed : σ → ε → Prop) [∀ s event, Decidable (allowed s event)] (happens : σ → ε → Option σ) :
    List ε → σ → Option σ
  | [], s => some s
  | event :: events, s => if allowed s event then (happens s event).bind (play allowed happens events) else none

/-- A run that is computed is one. -/
theorem Reached.play {happens : σ → ε → Option σ} [∀ s event, Decidable (allowed s event)] {events : List ε} {s s' : σ}
    (h : Reached initial allowed (fun s event s' => happens s event = some s') s)
    (hplay : Lib.play allowed happens events s = some s') :
    Reached initial allowed (fun s event s' => happens s event = some s') s' := by
  induction events generalizing s with
  | nil => exact Option.some.inj hplay ▸ h
  | cons event events ih =>
    rw [Lib.play] at hplay
    split at hplay
    · next hallowed =>
      obtain ⟨t, ht, hrest⟩ := Option.bind_eq_some_iff.mp hplay
      exact ih (.step event h hallowed ht) hrest
    · cases hplay

end Distgard.Lib
