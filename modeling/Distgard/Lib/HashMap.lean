import Mathlib.Data.Finmap
import Mathlib.Data.List.Nodup
import Mathlib.Algebra.BigOperators.Group.Finset.Basic

/-!
# Hash maps and hash sets

A hash map is a finite map (Mathlib's `Finmap`): its contents, without the order in
which an iteration visits them. Where a program iterates, the order is an argument:
`HashMap.Iter m` is one order in which the entries of `m` can be visited, and
`IterOrder` one way in which hash sets of a type are iterated. A hash set is kept as a
list without repetitions, `insert` adding an element that is not there.

`HashMap.sum` adds a weight over the entries; it bounds loops that empty a map.
-/

namespace Distgard.Lib

/-- A hash map from `K` to `V`. -/
abbrev HashMap (K V : Type*) := Finmap fun _ : K => V

namespace HashMap

variable {K V : Type*} [DecidableEq K]

theorem lookup_insert' (m : HashMap K V) (k k' : K) (v : V) :
    (m.insert k v).lookup k' = if k' = k then some v else m.lookup k' := by
  split
  · next h => subst h; exact Finmap.lookup_insert m
  · next h => exact Finmap.lookup_insert_of_ne m h

theorem lookup_erase' (m : HashMap K V) (k k' : K) :
    (m.erase k).lookup k' = if k' = k then none else m.lookup k' := by
  split
  · next h => subst h; exact Finmap.lookup_erase k' m
  · next h => exact Finmap.lookup_erase_ne h

/-! ### Iteration -/

/-- An order in which an iteration over the map can visit its entries. -/
structure Iter (m : HashMap K V) where
  /-- The entries, in the order in which they are visited. -/
  entries : List (K × V)
  /-- No key is visited twice. -/
  nodup : (entries.map Prod.fst).Nodup
  /-- The entries visited are those of the map. -/
  mem_iff : ∀ k v, (k, v) ∈ entries ↔ m.lookup k = some v

/-- An empty map is iterated in no steps. -/
def Iter.empty : Iter (∅ : HashMap K V) := ⟨[], List.nodup_nil, by simp⟩

/-- Every map can be iterated. -/
theorem Iter.exists (m : HashMap K V) : Nonempty (Iter m) := by
  induction m using Finmap.induction_on with
  | _ a =>
    refine ⟨⟨a.entries.map fun s => (s.1, s.2), ?_, fun k v => ?_⟩⟩
    · rw [List.map_map]
      exact a.nodupKeys
    · rw [Finmap.lookup_toFinmap, ← Option.mem_def, AList.mem_lookup_iff, List.mem_map]
      constructor
      · rintro ⟨s, hs, he⟩
        cases he
        exact hs
      · exact fun h => ⟨⟨k, v⟩, h, rfl⟩

/-- A map with one entry is iterated in one step. -/
theorem Iter.entries_singleton {k : K} {v : V} (it : Iter ((∅ : HashMap K V).insert k v)) : it.entries = [(k, v)] := by
  apply List.perm_singleton.mp
  apply (List.perm_ext_iff_of_nodup (List.Nodup.of_map _ it.nodup) (List.nodup_singleton (k, v))).mpr
  rintro ⟨k', v'⟩
  rw [it.mem_iff, lookup_insert', Finmap.lookup_empty, List.mem_singleton, Prod.mk.injEq]
  split
  · next h => simp only [h, Option.some.injEq, true_and, eq_comm]
  · next h => simp only [h, false_and, reduceCtorEq]

/-- Put the rows into the map one after the other, each replacing the value of its key. -/
def insertAll (rows : List (K × V)) (m : HashMap K V) : HashMap K V :=
  rows.foldl (fun t r => t.insert r.1 r.2) m

theorem insertAll_cons (r : K × V) (rows : List (K × V)) (m : HashMap K V) :
    insertAll (r :: rows) m = insertAll rows (m.insert r.1 r.2) := rfl

theorem insertAll_append (rows rows' : List (K × V)) (m : HashMap K V) :
    insertAll (rows ++ rows') m = insertAll rows' (insertAll rows m) := by
  rw [insertAll, List.foldl_append, insertAll, insertAll]

/-- A key that is in no row keeps its value. -/
theorem lookup_insertAll_of_notMem {rows : List (K × V)} {k : K} (h : ∀ v, (k, v) ∉ rows)
    (m : HashMap K V) : (insertAll rows m).lookup k = m.lookup k := by
  induction rows generalizing m with
  | nil => rfl
  | cons r rows ih =>
    have hk : k ≠ r.1 := fun e => h r.2 (e ▸ List.mem_cons_self ..)
    rw [insertAll_cons, ih (fun v hv => h v (List.mem_cons_of_mem _ hv)), Finmap.lookup_insert_of_ne _ hk]

/-- When every row of a key that has rows carries `v`, the key ends with `v`. -/
theorem lookup_insertAll_of_forall {rows : List (K × V)} {k : K} {v : V} (hm : (k, v) ∈ rows)
    (h : ∀ w, (k, w) ∈ rows → w = v) (m : HashMap K V) : (insertAll rows m).lookup k = some v := by
  induction rows generalizing m with
  | nil => cases hm
  | cons r rows ih =>
    rw [insertAll_cons]
    by_cases hrest : (k, v) ∈ rows
    · exact ih hrest (fun w hw => h w (List.mem_cons_of_mem _ hw)) _
    · have hr : r = (k, v) := ((List.mem_cons.mp hm).resolve_right hrest).symm
      subst hr
      rw [lookup_insertAll_of_notMem, Finmap.lookup_insert]
      intro w hw
      have := h w (List.mem_cons_of_mem _ hw)
      exact hrest (this ▸ hw)

/-- Rows put into a map lie over what was there. -/
theorem lookup_insertAll (rows : List (K × V)) (m : HashMap K V) (k : K) :
    (insertAll rows m).lookup k = ((insertAll rows ∅).lookup k).or (m.lookup k) := by
  induction rows generalizing m with
  | nil => simp [insertAll]
  | cons r rows ih =>
    rw [insertAll_cons, insertAll_cons, ih, ih (Finmap.insert _ _ _), lookup_insert', lookup_insert', Option.or_assoc]
    split
    · rw [Option.some_or]
    · rw [Finmap.lookup_empty, Option.none_or]

/-- Inserting the entries of a map, in whatever order they are visited, puts the map's
own values over the ones that were there. -/
theorem Iter.lookup_insertAll {m : HashMap K V} (it : Iter m) (t : HashMap K V) (k : K) :
    (insertAll it.entries t).lookup k = (m.lookup k).or (t.lookup k) := by
  cases hk : m.lookup k with
  | some v =>
    refine lookup_insertAll_of_forall ((it.mem_iff k v).mpr hk) (fun w hw => ?_) t
    have := (it.mem_iff k w).mp hw
    rw [hk] at this
    exact (Option.some.inj this).symm
  | none =>
    rw [lookup_insertAll_of_notMem, Option.none_or]
    intro v hv
    have := (it.mem_iff k v).mp hv
    rw [hk] at this
    cases this

/-- Inserting the entries of a map over another leaves that map alone exactly when the other
has no further key. -/
theorem Iter.insertAll_eq_iff {m : HashMap K V} (it : Iter m) (t : HashMap K V) :
    insertAll it.entries t = m ↔ ∀ k ∈ t, k ∈ m := by
  constructor
  · intro h k hk
    rw [← h, ← Finmap.lookup_isSome, it.lookup_insertAll, Option.isSome_or, Finmap.lookup_isSome.mpr hk, Bool.or_true]
  · intro h
    apply Finmap.ext_lookup
    intro k
    rw [it.lookup_insertAll]
    cases hk : m.lookup k with
    | some v => rfl
    | none =>
      rw [Option.none_or, Finmap.lookup_eq_none]
      intro hmem
      exact Finmap.lookup_eq_none.mp hk (h k hmem)

/-! ### Values -/

/-- The values of a map, each as often as it has keys. -/
def values (m : HashMap K V) : Multiset V := m.entries.map Sigma.snd

theorem values_insert {m : HashMap K V} {k : K} (h : k ∉ m) (v : V) : values (m.insert k v) = v ::ₘ values m := by
  rw [values, Finmap.entries_insert_of_notMem h, Multiset.map_cons]
  rfl

/-- Erasing a key takes its value out. -/
theorem values_erase {m : HashMap K V} {k : K} {v : V} (h : m.lookup k = some v) : v ::ₘ values (m.erase k) = values m := by
  have hnew : k ∉ m.erase k := fun hk => (Finmap.mem_erase.mp hk).1 rfl
  rw [← values_insert hnew]
  apply congrArg values
  apply Finmap.ext_lookup
  intro k'
  rw [lookup_insert', lookup_erase']
  split
  · next he => rw [he, h]
  · rfl

/-- A value that is moved to another key is still there. -/
theorem values_move {m : HashMap K V} {k k' : K} {v : V} (h : m.lookup k = some v) (h' : k' ∉ m) :
    values ((m.erase k).insert k' v) = values m := by
  rw [values_insert (fun hk => h' (Finmap.mem_erase.mp hk).2), values_erase h]

/-! ### Weights -/

/-- The total weight of the entries. -/
def sum (f : V → ℕ) (m : HashMap K V) : ℕ := ∑ k ∈ m.keys, (m.lookup k).elim 0 f

/-- Replacing the value of a key replaces its weight in the total. -/
theorem sum_insert (f : V → ℕ) (m : HashMap K V) {k : K} {v w : V} (h : m.lookup k = some v) :
    sum f (m.insert k w) + f v = sum f m + f w := by
  have hk : k ∈ m.keys := Finmap.mem_keys.mpr (Finmap.mem_iff.mpr ⟨v, h⟩)
  have hkeys : (m.insert k w).keys = m.keys := by
    ext x
    simp only [Finmap.mem_keys, Finmap.mem_insert]
    constructor
    · rintro (rfl | hx)
      · exact Finmap.mem_keys.mp hk
      · exact hx
    · exact Or.inr
  have hrest : ∑ x ∈ m.keys.erase k, ((m.insert k w).lookup x).elim 0 f =
      ∑ x ∈ m.keys.erase k, (m.lookup x).elim 0 f :=
    Finset.sum_congr rfl fun x hx => by
      rw [Finmap.lookup_insert_of_ne _ (Finset.ne_of_mem_erase hx)]
  unfold sum
  rw [hkeys, ← Finset.add_sum_erase _ _ hk, ← Finset.add_sum_erase _ _ hk, hrest,
    Finmap.lookup_insert, h]
  simp only [Option.elim_some]
  omega

/-- A new key adds its weight to the total. -/
theorem sum_insert_of_notMem (f : V → ℕ) (m : HashMap K V) {k : K} {w : V} (h : k ∉ m) :
    sum f (m.insert k w) = sum f m + f w := by
  have hk : k ∉ m.keys := fun hk => h (Finmap.mem_keys.mp hk)
  have hkeys : (m.insert k w).keys = insert k m.keys := by
    ext x
    simp only [Finmap.mem_keys, Finmap.mem_insert, Finset.mem_insert]
  have hrest : ∑ x ∈ m.keys, ((m.insert k w).lookup x).elim 0 f = ∑ x ∈ m.keys, (m.lookup x).elim 0 f :=
    Finset.sum_congr rfl fun x hx => by rw [Finmap.lookup_insert_of_ne _ fun he : x = k => hk (he ▸ hx)]
  rw [sum, sum, hkeys, Finset.sum_insert hk, hrest, Finmap.lookup_insert, Option.elim_some, Nat.add_comm]

end HashMap

/-! ### Hash sets -/

/-- A hash set, as the list of its elements without repetitions. -/
abbrev HashSet (α : Type*) := List α

/-- Where each round of a loop over a list adds what its element brings, and nothing else,
the loop ends with what all elements bring. -/
theorem foldl_iff_exists {σ α : Type*} {step : σ → α → σ} (P : σ → Prop) (Q : α → Prop)
    (hstep : ∀ s a, P (step s a) ↔ P s ∨ Q a) (l : List α) (s : σ) : P (l.foldl step s) ↔ P s ∨ ∃ a ∈ l, Q a := by
  induction l generalizing s with
  | nil => simp
  | cons a l ih => rw [List.foldl_cons, ih, hstep, List.exists_mem_cons_iff, or_assoc]

/-- What every round of a loop over a list keeps, the loop keeps. -/
theorem foldl_induct {σ α : Type*} {step : σ → α → σ} (P : σ → Prop) (l : List α)
    (hstep : ∀ s, ∀ a ∈ l, P s → P (step s a)) {s : σ} (h : P s) : P (l.foldl step s) := by
  induction l generalizing s with
  | nil => exact h
  | cons a l ih =>
    exact ih (fun s b hb => hstep s b (List.mem_cons_of_mem _ hb)) (hstep s a (List.mem_cons_self ..) h)

/-- One way in which hash sets of a type are iterated. -/
structure IterOrder (α : Type*) where
  /-- The elements in the order in which they are visited. -/
  iter : HashSet α → List α
  /-- Every element is visited once. -/
  perm : ∀ s, (iter s).Perm s

namespace IterOrder

variable {α : Type*}

/-- Iterate in the order in which the list holds the elements. -/
def id : IterOrder α := ⟨fun s => s, fun _ => List.Perm.refl _⟩

@[simp] theorem mem_iter (o : IterOrder α) {s : HashSet α} {a : α} : a ∈ o.iter s ↔ a ∈ s :=
  (o.perm s).mem_iff

theorem nodup_iter (o : IterOrder α) {s : HashSet α} (h : s.Nodup) : (o.iter s).Nodup :=
  (o.perm s).nodup_iff.mpr h

@[simp] theorem iter_nil (o : IterOrder α) : o.iter [] = [] := (o.perm []).eq_nil

end IterOrder

end Distgard.Lib
