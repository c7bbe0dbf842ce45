import Mathlib.Data.List.Induction
import Mathlib.Logic.Function.Basic
import Mathlib.Order.Nat

/-!
# Two queues and one display

News about things arrive in two queues and are shown by one reader, who looks at them in
turns: each turn takes the first of the fast queue, then the first of the slow one, and
after a slow one all that is left in the fast queue. What is shown of a thing is the last
news of it that was taken.

All news are kept in a log, and the queues hold places in the log, so that of two news the
one with the greater place is the later. A turn is `InOrder` when nothing is taken while
earlier news of the same thing are still waiting.

`Settled` is the invariant: what waits is later than what is shown, and the latest news of a
thing wait or are shown. News keep it (`Settled.push`), and so does a turn that is in order
(`Settled.draw`). Once both queues are empty, the latest news are shown
(`Settled.shown_of_empty`).
-/

namespace Distgard.Lib

/-- Two queues of news, in the order in which they came, and what is shown. -/
structure Lanes (α ι : Type*) where
  /-- All news, the first first. -/
  log : List α
  /-- The fast queue: places in the log. -/
  fast : List ℕ
  /-- The slow queue. -/
  slow : List ℕ
  /-- The place of the news shown of each thing. -/
  shown : ι → Option ℕ

namespace Lanes

variable {α ι : Type*} (thing : α → ι)

/-- No news. -/
def empty : Lanes α ι := ⟨[], [], [], fun _ => none⟩

/-- The thing that the news at a place are about. -/
def about (l : Lanes α ι) (k : ℕ) : Option ι := (l.log[k]?).map thing

/-- The news come in the fast queue or in the slow one. -/
def push (l : Lanes α ι) (isFast : Bool) (a : α) : Lanes α ι where
  log := l.log ++ [a]
  fast := if isFast then l.fast ++ [l.log.length] else l.fast
  slow := if isFast then l.slow else l.slow ++ [l.log.length]
  shown := l.shown

/-- What a turn takes, in its order. -/
def taken (l : Lanes α ι) : List ℕ :=
  match l.slow with
  | [] => l.fast.take 1
  | k :: _ => l.fast.take 1 ++ k :: l.fast.drop 1

/-- What a turn leaves in the fast queue. -/
def fastLeft (l : Lanes α ι) : List ℕ :=
  match l.slow with
  | [] => l.fast.drop 1
  | _ :: _ => []

/-- Show the news at a place. -/
def display [DecidableEq ι] (l : Lanes α ι) (shown : ι → Option ℕ) (k : ℕ) : ι → Option ℕ :=
  fun i => if l.about thing k = some i then some k else shown i

/-- A turn. -/
def draw [DecidableEq ι] (l : Lanes α ι) : Lanes α ι where
  log := l.log
  fast := l.fastLeft
  slow := l.slow.drop 1
  shown := l.taken.foldl (l.display thing) l.shown

/-- Nothing is taken while earlier news of the same thing wait. -/
def InOrder (l : Lanes α ι) : Prop :=
  l.taken.Pairwise (fun j k => l.about thing j = l.about thing k → j < k) ∧
    ∀ j ∈ l.taken, ∀ k ∈ l.fastLeft ++ l.slow.drop 1, l.about thing j = l.about thing k → j < k

/-- The news at a place are the latest of their thing. -/
def Latest (l : Lanes α ι) (i : ι) (k : ℕ) : Prop :=
  l.about thing k = some i ∧ ∀ j, l.about thing j = some i → j ≤ k

/-- What waits is later than what is shown, and the latest news wait or are shown. -/
structure Settled (l : Lanes α ι) : Prop where
  /-- The queues hold places in the log. -/
  waits : ∀ k ∈ l.fast ++ l.slow, k < l.log.length
  /-- What is shown is in the log. -/
  known : ∀ i k, l.shown i = some k → k < l.log.length ∧ l.about thing k = some i
  /-- What waits is later than what is shown. -/
  later : ∀ k ∈ l.fast ++ l.slow, ∀ i, l.about thing k = some i → ∀ j, l.shown i = some j → j < k
  /-- The latest news wait or are shown. -/
  latest : ∀ i k, l.Latest thing i k → k ∈ l.fast ++ l.slow ∨ l.shown i = some k

variable {thing} {l : Lanes α ι}

theorem Settled.empty : Settled thing (Lanes.empty : Lanes α ι) := by
  refine ⟨?_, ?_, ?_, ?_⟩
  · intro k hk
    cases hk
  · intro i k hk
    cases hk
  · intro k hk
    cases hk
  · intro i k hk
    cases hk.1

theorem about_lt {k : ℕ} {i : ι} (h : l.about thing k = some i) : k < l.log.length := by
  obtain ⟨a, ha, -⟩ := Option.map_eq_some_iff.mp h
  exact (List.getElem?_eq_some_iff.mp ha).1

/-- What the log says about its old places it still says when news come. -/
theorem about_push {isFast : Bool} {a : α} {k : ℕ} (hk : k < l.log.length) :
    (l.push isFast a).about thing k = l.about thing k := by
  rw [about, about, push, List.getElem?_append_left hk]

theorem about_push_length {isFast : Bool} {a : α} :
    (l.push isFast a).about thing l.log.length = some (thing a) := by
  rw [about, push, List.getElem?_concat_length]
  rfl

/-- A place of the longer log is an old one, or that of the news. -/
theorem about_push_cases {isFast : Bool} {a : α} {k : ℕ} {i : ι} (h : (l.push isFast a).about thing k = some i) :
    l.about thing k = some i ∨ k = l.log.length ∧ i = thing a := by
  have hk : k < l.log.length + 1 := by simpa [push] using about_lt h
  rcases Nat.lt_succ_iff_lt_or_eq.mp hk with hlt | rfl
  · exact .inl (by rwa [about_push hlt] at h)
  · rw [about_push_length] at h
    exact .inr ⟨rfl, (Option.some.inj h).symm⟩

/-- The latest news after others came: they are those, or they are about another thing. -/
theorem Latest.push_cases {isFast : Bool} {a : α} {i : ι} {k : ℕ} (h : (l.push isFast a).Latest thing i k) :
    (l.Latest thing i k ∧ i ≠ thing a) ∨ k = l.log.length ∧ i = thing a := by
  rcases about_push_cases h.1 with hi | hnew
  · refine .inl ⟨⟨hi, fun j hj => h.2 j ((about_push (about_lt hj)).trans hj)⟩, fun hia => ?_⟩
    -- the news that came would be later
    have hle := h.2 l.log.length (hia ▸ about_push_length)
    have hlt := about_lt hi
    omega
  · exact .inr hnew

/-- The last news of a thing in the log are its latest. -/
theorem exists_latest [DecidableEq ι] {i : ι} {a : α} (h : (l.log.filter (thing · = i)).getLast? = some a) :
    ∃ k, l.Latest thing i k ∧ l.log[k]? = some a := by
  have hlast : ∀ log : List α, (log.filter (thing · = i)).getLast? = some a →
      ∃ k : ℕ, log[k]? = some a ∧ thing a = i ∧ ∀ (j : ℕ) (b : α), log[j]? = some b → thing b = i → j ≤ k := by
    intro log
    induction log using List.reverseRecOn with
    | nil => intro h; cases h
    | append_singleton log b ih =>
      intro h
      have hlt : ∀ (j : ℕ) (c : α), (log ++ [b])[j]? = some c → j < log.length + 1 := fun j c hj => by
        simpa using (List.getElem?_eq_some_iff.mp hj).1
      rw [List.filter_append] at h
      by_cases hb : thing b = i
      · rw [List.filter_cons_of_pos (by simpa using hb), List.filter_nil, List.getLast?_concat] at h
        cases h
        exact ⟨log.length, List.getElem?_concat_length, hb, fun j c hj _ => Nat.le_of_lt_succ (hlt j c hj)⟩
      · rw [List.filter_cons_of_neg (by simpa using hb), List.filter_nil, List.append_nil] at h
        obtain ⟨k, hk, hi, hmax⟩ := ih h
        refine ⟨k, ?_, hi, ?_⟩
        · rw [List.getElem?_append_left (List.getElem?_eq_some_iff.mp hk).1, hk]
        · intro j c hj hc
          rcases Nat.lt_succ_iff_lt_or_eq.mp (hlt j c hj) with hj' | rfl
          · rw [List.getElem?_append_left hj'] at hj
            exact hmax j c hj hc
          · rw [List.getElem?_concat_length] at hj
            cases hj
            exact absurd hc hb
  obtain ⟨k, hk, hi, hmax⟩ := hlast l.log h
  refine ⟨k, ⟨by rw [about, hk, Option.map_some, hi], fun j hj => ?_⟩, hk⟩
  obtain ⟨b, hb, hbi⟩ := Option.map_eq_some_iff.mp hj
  exact hmax j b hb hbi

theorem mem_push {isFast : Bool} {a : α} {k : ℕ} :
    k ∈ (l.push isFast a).fast ++ (l.push isFast a).slow ↔ k ∈ l.fast ++ l.slow ∨ k = l.log.length := by
  cases isFast
  · simp [push, or_assoc]
  · simp [push, or_comm, or_left_comm]

/-- **News** keep the lanes settled. -/
theorem Settled.push (h : Settled thing l) (isFast : Bool) (a : α) : Settled thing (l.push isFast a) := by
  refine ⟨?_, ?_, ?_, ?_⟩
  · intro k hk
    show k < (l.log ++ [a]).length
    rw [List.length_append, List.length_singleton]
    rcases mem_push.mp hk with hk | rfl
    · exact Nat.lt_succ_of_lt (h.waits k hk)
    · exact Nat.lt_succ_self _
  · intro i k hk
    obtain ⟨hlt, hi⟩ := h.known i k hk
    refine ⟨?_, (about_push hlt).trans hi⟩
    show k < (l.log ++ [a]).length
    rw [List.length_append, List.length_singleton]
    exact Nat.lt_succ_of_lt hlt
  · intro k hk i hi j hj
    rcases mem_push.mp hk with hk | rfl
    · rw [about_push (h.waits k hk)] at hi
      exact h.later k hk i hi j hj
    · exact (h.known i j hj).1
  · intro i k hk
    rcases hk.push_cases with ⟨hold, -⟩ | ⟨rfl, -⟩
    · rcases h.latest i k hold with hw | hs
      · exact .inl (mem_push.mpr (.inl hw))
      · exact .inr hs
    · exact .inl (mem_push.mpr (.inr rfl))

/-! ### A turn -/

/-- What waits is taken or left. -/
theorem mem_taken_or_left {k : ℕ} :
    k ∈ l.fast ++ l.slow ↔ k ∈ l.taken ∨ k ∈ l.fastLeft ++ l.slow.drop 1 := by
  have hfast : k ∈ l.fast ↔ k ∈ l.fast.take 1 ∨ k ∈ l.fast.drop 1 := by
    rw [← List.mem_append, List.take_append_drop]
  rw [List.mem_append, hfast, taken, fastLeft]
  cases hs : l.slow with
  | nil => simp
  | cons j slow =>
    simp only [List.mem_append, List.mem_cons, List.drop_succ_cons, List.drop_zero, List.not_mem_nil, false_or]
    tauto

variable [DecidableEq ι]

/-- What is shown after some news have been taken: the last of the thing that was among them,
or what was shown. -/
theorem foldl_display (ks : List ℕ) (shown : ι → Option ℕ) (i : ι) :
    ks.foldl (l.display thing) shown i = ((ks.filter (l.about thing · = some i)).getLast?).or (shown i) := by
  induction ks generalizing shown with
  | nil => rfl
  | cons k ks ih =>
    rw [List.foldl_cons, ih, display]
    by_cases hk : l.about thing k = some i
    · rw [if_pos hk, List.filter_cons_of_pos (by simpa using hk), List.getLast?_cons]
      cases (ks.filter (l.about thing · = some i)).getLast? <;> rfl
    · rw [if_neg hk, List.filter_cons_of_neg (by simpa using hk)]

/-- What a turn shows of a thing. -/
theorem shown_draw (i : ι) : (l.draw thing).shown i =
    ((l.taken.filter (l.about thing · = some i)).getLast?).or (l.shown i) := foldl_display l.taken l.shown i

omit [DecidableEq ι] in
/-- The last of an increasing list is no less than any of it. -/
theorem le_of_getLast? {ks : List ℕ} (h : ks.Pairwise (· < ·)) {j k : ℕ} (hj : ks.getLast? = some j) (hk : k ∈ ks) :
    k ≤ j := by
  obtain ⟨front, rfl⟩ := List.getLast?_eq_some_iff.mp hj
  rcases List.mem_append.mp hk with hk | hk
  · exact ((List.pairwise_append.mp h).2.2 k hk j (List.mem_singleton.mpr rfl)).le
  · exact (List.mem_singleton.mp hk).le

/-- What is shown after a turn was taken in it, or was shown before it and nothing of the thing
was taken. -/
theorem shown_draw_cases {i : ι} {j : ℕ} (hj : (l.draw thing).shown i = some j) :
    (j ∈ l.taken ∧ l.about thing j = some i) ∨ (∀ k ∈ l.taken, l.about thing k ≠ some i) ∧ l.shown i = some j := by
  rw [shown_draw] at hj
  cases hlast : (l.taken.filter (l.about thing · = some i)).getLast? with
  | some k =>
    rw [hlast, Option.some_or] at hj
    cases hj
    obtain ⟨hm, hji⟩ := List.mem_filter.mp (List.mem_of_getLast? hlast)
    exact .inl ⟨hm, by simpa using hji⟩
  | none =>
    rw [hlast, Option.none_or] at hj
    refine .inr ⟨?_, hj⟩
    intro k hk hki
    have hmem : k ∈ l.taken.filter (l.about thing · = some i) := List.mem_filter.mpr ⟨hk, by simpa using hki⟩
    rw [List.getLast?_eq_none_iff.mp hlast] at hmem
    cases hmem

/-- A turn in order that takes the latest news of a thing shows them: the last of the thing that
it takes are no earlier, so they are the latest. -/
theorem shown_draw_of_latest (ho : l.InOrder thing) {i : ι} {k : ℕ} (hk : l.Latest thing i k) (hm : k ∈ l.taken) :
    (l.draw thing).shown i = some k := by
  rw [shown_draw]
  have hmem : k ∈ l.taken.filter (l.about thing · = some i) := List.mem_filter.mpr ⟨hm, by simpa using hk.1⟩
  obtain ⟨j, hj⟩ : ∃ j, (l.taken.filter (l.about thing · = some i)).getLast? = some j := by
    cases hl : (l.taken.filter (l.about thing · = some i)).getLast? with
    | some j => exact ⟨j, rfl⟩
    | none =>
      rw [List.getLast?_eq_none_iff.mp hl] at hmem
      cases hmem
  have hji : l.about thing j = some i := by simpa using (List.mem_filter.mp (List.mem_of_getLast? hj)).2
  have hincr : (l.taken.filter (l.about thing · = some i)).Pairwise (· < ·) := by
    refine (ho.1.filter _).imp_of_mem fun {a b} ha hb hab => hab ?_
    have hai : l.about thing a = some i := by simpa using (List.mem_filter.mp ha).2
    have hbi : l.about thing b = some i := by simpa using (List.mem_filter.mp hb).2
    exact hai.trans hbi.symm
  rw [hj, Option.some_or, le_antisymm (hk.2 j hji) (le_of_getLast? hincr hj hmem)]

/-- **A turn in order** keeps the lanes settled. -/
theorem Settled.draw (h : Settled thing l) (ho : l.InOrder thing) : Settled thing (l.draw thing) := by
  refine ⟨?_, ?_, ?_, ?_⟩
  · intro k hk
    exact h.waits k (mem_taken_or_left.mpr (.inr hk))
  · intro i k hk
    rcases shown_draw_cases hk with ⟨hm, hi⟩ | ⟨-, hs⟩
    · exact ⟨h.waits k (mem_taken_or_left.mpr (.inl hm)), hi⟩
    · exact h.known i k hs
  · intro k hk i hi j hj
    rcases shown_draw_cases hj with ⟨hm, hji⟩ | ⟨-, hs⟩
    · exact ho.2 j hm k hk (hji.trans hi.symm)
    · exact h.later k (mem_taken_or_left.mpr (.inr hk)) i hi j hs
  · intro i k hk
    rcases h.latest i k hk with hw | hs
    · rcases mem_taken_or_left.mp hw with hm | hleft
      · exact .inr (shown_draw_of_latest ho hk hm)
      · exact .inl hleft
    · right
      rw [shown_draw]
      have hnone : l.taken.filter (l.about thing · = some i) = [] := by
        apply List.filter_eq_nil_iff.mpr
        intro j hj hji
        have hji : l.about thing j = some i := by simpa using hji
        have hlater := h.later j (mem_taken_or_left.mpr (.inl hj)) i hji k hs
        exact absurd (hk.2 j hji) (by omega)
      rw [hnone]
      exact hs

omit [DecidableEq ι] in
/-- **Once both queues are empty** the latest news are shown. -/
theorem Settled.shown_of_empty (h : Settled thing l) (hfast : l.fast = []) (hslow : l.slow = []) {i : ι} {k : ℕ}
    (hk : l.Latest thing i k) : l.shown i = some k := by
  rcases h.latest i k hk with hw | hs
  · rw [hfast, hslow] at hw
    cases hw
  · exact hs

end Lanes

end Distgard.Lib
