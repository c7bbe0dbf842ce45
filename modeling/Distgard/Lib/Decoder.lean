import Mathlib.Data.List.Basic

/-!
# Decoders of streams

A decoder is shown the bytes that have arrived and not been used. It makes an item of the first of
them, waits for more, or fails; it may use bytes and change its state while it waits. The reader
asks it again and again, gets more bytes when it waits, and gives up when it fails.

The laws say that a decoder decides nothing too early: what it makes of some bytes it also makes
of them when more have arrived behind them. `readAll_append` is the rule the proofs use: items may be
made of the first bytes before the others are there. So it does not matter into which pieces a
stream is cut (`readPieces_eq`).
-/

namespace Distgard.Lib

universe u v w z

/-- What a decoder makes of the bytes it is shown. -/
inductive Decoded (S : Type u) (B : Type v) (A : Type w) (E : Type z) where
  /-- An item; the bytes after it are left. -/
  | item (a : A) (s : S) (rest : List B)
  /-- There are too few bytes. -/
  | wait (s : S) (rest : List B)
  /-- This is no stream. -/
  | fail (e : E)
  deriving DecidableEq

/-- A decoder. -/
structure Decoder (S : Type u) (B : Type v) (A : Type w) (E : Type z) where
  /-- What it makes of the bytes it is shown. -/
  decode : S → List B → Decoded S B A E
  /-- What is left to be done in a state without any bytes. -/
  weight : S → ℕ
  /-- An item stays one when more bytes arrive. -/
  item_append : ∀ {s bytes a s' rest}, decode s bytes = .item a s' rest →
    ∀ more, decode s (bytes ++ more) = .item a s' (rest ++ more)
  /-- So does a failure. -/
  fail_append : ∀ {s bytes e}, decode s bytes = .fail e → ∀ more, decode s (bytes ++ more) = .fail e
  /-- After it has waited it goes on as if it had not. -/
  wait_append : ∀ {s bytes s' rest}, decode s bytes = .wait s' rest →
    ∀ more, decode s (bytes ++ more) = decode s' (rest ++ more)
  /-- There are only so many items in some bytes. -/
  decreases : ∀ {s bytes a s' rest}, decode s bytes = .item a s' rest →
    rest.length + weight s' < bytes.length + weight s
  /-- Nothing is added when it waits. -/
  wait_le : ∀ {s bytes s' rest}, decode s bytes = .wait s' rest → rest.length + weight s' ≤ bytes.length + weight s

namespace Decoder

variable {S : Type u} {B : Type v} {A : Type w} {E : Type z} (d : Decoder S B A E)

/-- The items in the bytes, and what is left when the decoder waits or has failed. -/
def readAll (s : S) (bytes : List B) : List A × Except E (S × List B) :=
  match _h : d.decode s bytes with
  | .item a s' rest => (a :: (readAll s' rest).1, (readAll s' rest).2)
  | .wait s' rest => ([], .ok (s', rest))
  | .fail e => ([], .error e)
termination_by bytes.length + d.weight s
decreasing_by all_goals exact d.decreases _h

variable {d} {s s' : S} {bytes rest : List B} {a : A} {e : E}

theorem readAll_item (h : d.decode s bytes = .item a s' rest) :
    d.readAll s bytes = (a :: (d.readAll s' rest).1, (d.readAll s' rest).2) := by
  rw [readAll]
  split
  · next h' => rw [h] at h'; cases h'; rfl
  · next h' => rw [h] at h'; cases h'
  · next h' => rw [h] at h'; cases h'

theorem readAll_wait (h : d.decode s bytes = .wait s' rest) : d.readAll s bytes = ([], .ok (s', rest)) := by
  rw [readAll]
  split
  · next h' => rw [h] at h'; cases h'
  · next h' => rw [h] at h'; cases h'; rfl
  · next h' => rw [h] at h'; cases h'

theorem readAll_fail (h : d.decode s bytes = .fail e) : d.readAll s bytes = ([], .error e) := by
  rw [readAll]
  split
  · next h' => rw [h] at h'; cases h'
  · next h' => rw [h] at h'; cases h'
  · next h' => rw [h] at h'; cases h'; rfl

/-- Bytes that arrive while the decoder waits are decoded as if they had been there before. -/
theorem readAll_of_wait (h : d.decode s bytes = .wait s' rest) (more : List B) :
    d.readAll s (bytes ++ more) = d.readAll s' (rest ++ more) := by
  have hsame := d.wait_append h more
  cases hdecode : d.decode s' (rest ++ more) with
  | item a s'' rest' => rw [readAll_item hdecode, readAll_item (hsame.trans hdecode)]
  | wait s'' rest' => rw [readAll_wait hdecode, readAll_wait (hsame.trans hdecode)]
  | fail e => rw [readAll_fail hdecode, readAll_fail (hsame.trans hdecode)]

/-- **Items may be made early**: of the first bytes before the others are there. -/
theorem readAll_append (s : S) (bytes more : List B) :
    d.readAll s (bytes ++ more) =
      match d.readAll s bytes with
      | (as, .ok (s', rest)) => (as ++ (d.readAll s' (rest ++ more)).1, (d.readAll s' (rest ++ more)).2)
      | (as, .error e) => (as, .error e) := by
  induction hn : bytes.length + d.weight s using Nat.strongRecOn generalizing s bytes with
  | _ n ih =>
    subst hn
    cases hdecode : d.decode s bytes with
    | item a s' rest =>
      rw [readAll_item (d.item_append hdecode more), readAll_item hdecode, ih _ (d.decreases hdecode) s' rest rfl]
      rcases d.readAll s' rest with ⟨as, _ | ⟨s'', rest'⟩⟩ <;> rfl
    | wait s' rest =>
      rw [readAll_wait hdecode, readAll_of_wait hdecode]
      rfl
    | fail e => rw [readAll_fail hdecode, readAll_fail (d.fail_append hdecode more)]

/-! ### Pieces -/

/-- What is read of the next piece of the stream. -/
def readPiece (d : Decoder S B A E) (reader : Except E (S × List B)) (piece : List B) : List A × Except E (S × List B) :=
  match reader with
  | .ok (s, bytes) => d.readAll s (bytes ++ piece)
  | .error e => ([], .error e)

/-- What is read of all pieces of the stream. -/
def readPieces (d : Decoder S B A E) : Except E (S × List B) → List (List B) → List A × Except E (S × List B)
  | reader, [] => ([], reader)
  | reader, piece :: pieces =>
    let now := d.readPiece reader piece
    let later := readPieces d now.2 pieces
    (now.1 ++ later.1, later.2)

theorem readPieces_error (e : E) (pieces : List (List B)) : d.readPieces (.error e) pieces = ([], .error e) := by
  induction pieces with
  | nil => rfl
  | cons piece pieces ih =>
    show (([] : List A) ++ (d.readPieces (.error e) pieces).1, (d.readPieces (.error e) pieces).2) = _
    rw [ih]
    rfl

/-- **It does not matter how a stream is cut into pieces.** -/
theorem readPieces_eq (hwait : d.decode s bytes = .wait s bytes) (pieces : List (List B)) :
    d.readPieces (.ok (s, bytes)) pieces = d.readAll s (bytes ++ pieces.flatten) := by
  -- the first pieces have been readAlled already
  have hgeneral : ∀ (pieces : List (List B)) (first : List B),
      (match d.readAll s first with
        | (as, reader) => (as ++ (d.readPieces reader pieces).1, (d.readPieces reader pieces).2)) =
      d.readAll s (first ++ pieces.flatten) := by
    intro pieces
    induction pieces with
    | nil =>
      intro first
      rw [List.flatten_nil, List.append_nil]
      rcases d.readAll s first with ⟨as, reader⟩
      show (as ++ [], reader) = _
      rw [List.append_nil]
    | cons piece pieces ih =>
      intro first
      rw [List.flatten_cons, ← List.append_assoc, ← ih (first ++ piece), readAll_append]
      rcases d.readAll s first with ⟨as, e | ⟨s', rest⟩⟩
      · show (as ++ (d.readPieces (.error e) (piece :: pieces)).1, (d.readPieces (.error e) (piece :: pieces)).2) =
          (as ++ (d.readPieces (.error e) pieces).1, (d.readPieces (.error e) pieces).2)
        rw [readPieces_error, readPieces_error]
      · show (as ++ ((d.readAll s' (rest ++ piece)).1 ++ (d.readPieces (d.readAll s' (rest ++ piece)).2 pieces).1),
            (d.readPieces (d.readAll s' (rest ++ piece)).2 pieces).2) =
          (as ++ (d.readAll s' (rest ++ piece)).1 ++ (d.readPieces (d.readAll s' (rest ++ piece)).2 pieces).1,
            (d.readPieces (d.readAll s' (rest ++ piece)).2 pieces).2)
        rw [List.append_assoc]
  have hfirst := hgeneral pieces bytes
  rw [readAll_wait hwait] at hfirst
  exact hfirst

/-! ### Items that are looked at -/

/-- Each item is made into another one, or found to be none. -/
def andThen {A' E' : Type*} (d : Decoder S B A E) (f : A → Except E' A') (g : E → E') : Decoder S B A' E' where
  decode s bytes :=
    match d.decode s bytes with
    | .item a s' rest =>
      match f a with
      | .ok a' => .item a' s' rest
      | .error e => .fail e
    | .wait s' rest => .wait s' rest
    | .fail e => .fail (g e)
  weight := d.weight
  item_append h more := by
    split at h
    · next hdecode =>
      split at h
      · next hf =>
        cases h
        simp only [d.item_append hdecode more, hf]
      · cases h
    · cases h
    · cases h
  fail_append h more := by
    split at h
    · next hdecode =>
      split at h
      · cases h
      · next hf =>
        cases h
        simp only [d.item_append hdecode more, hf]
    · cases h
    · next hdecode =>
      cases h
      rw [d.fail_append hdecode more]
  wait_append h more := by
    split at h
    · split at h <;> cases h
    · next hdecode =>
      cases h
      rw [d.wait_append hdecode more]
    · cases h
  decreases h := by
    split at h
    · next hdecode =>
      split at h
      · cases h
        exact d.decreases hdecode
      · cases h
    · cases h
    · cases h
  wait_le h := by
    split at h
    · split at h <;> cases h
    · next hdecode =>
      cases h
      exact d.wait_le hdecode
    · cases h

section AndThen

variable {A' E' : Type*} {f : A → Except E' A'} {g : E → E'}

theorem andThen_decode_eq_item {a' : A'} :
    (d.andThen f g).decode s bytes = .item a' s' rest ↔ ∃ a, d.decode s bytes = .item a s' rest ∧ f a = .ok a' := by
  dsimp only [andThen]
  constructor
  · intro h
    split at h
    · next hdecode =>
      split at h
      · next hf =>
        cases h
        exact ⟨_, hdecode, hf⟩
      · cases h
    · cases h
    · cases h
  · rintro ⟨a, hdecode, hf⟩
    simp only [hdecode, hf]

theorem andThen_decode_fail (h : d.decode s bytes = .fail e) : (d.andThen f g).decode s bytes = .fail (g e) := by
  simp only [andThen, h]

end AndThen

/-! ### Streams of encoded items -/

/-- Between items the decoder is in the state `home`, and there it makes an item of exactly the
encodings of those that it accepts. -/
def Decodes (d : Decoder S B A E) (home : S) (enc : A → List B) (accepts : A → Prop) : Prop :=
  ∀ bytes a s rest, d.decode home bytes = .item a s rest ↔ s = home ∧ accepts a ∧ bytes = enc a ++ rest

variable {home : S} {enc : A → List B} {accepts : A → Prop}

/-- What was encoded is read, whatever follows. -/
theorem Decodes.readAll_flatMap (h : d.Decodes home enc accepts) {as : List A} (haccepts : ∀ a ∈ as, accepts a)
    (rest : List B) :
    d.readAll home (as.flatMap enc ++ rest) = (as ++ (d.readAll home rest).1, (d.readAll home rest).2) := by
  induction as with
  | nil => rfl
  | cons a as ih =>
    have hdecode : d.decode home ((a :: as).flatMap enc ++ rest) = .item a home (as.flatMap enc ++ rest) :=
      (h _ _ _ _).mpr ⟨rfl, haccepts a List.mem_cons_self, by rw [List.flatMap_cons, List.append_assoc]⟩
    rw [readAll_item hdecode, ih fun a ha => haccepts a (List.mem_cons_of_mem _ ha)]
    rfl

/-- **The items that are read are those whose encodings the stream starts with**, up to the first
one that is not accepted. -/
theorem Decodes.prefix_readAll_iff (h : d.Decodes home enc accepts) (bytes : List B) (as : List A) :
    as <+: (d.readAll home bytes).1 ↔ (∀ a ∈ as, accepts a) ∧ as.flatMap enc <+: bytes := by
  constructor
  · intro hprefix
    induction as generalizing bytes with
    | nil => exact ⟨fun a ha => (List.not_mem_nil ha).elim, List.nil_prefix⟩
    | cons a as ih =>
      cases hdecode : d.decode home bytes with
      | item a' s rest =>
        rw [readAll_item hdecode] at hprefix
        obtain ⟨rfl, haccepts, rfl⟩ := (h _ _ _ _).mp hdecode
        obtain ⟨rfl, htail⟩ := List.cons_prefix_cons.mp hprefix
        obtain ⟨hall, hrest⟩ := ih rest htail
        refine ⟨List.forall_mem_cons.mpr ⟨haccepts, hall⟩, ?_⟩
        rw [List.flatMap_cons]
        exact (List.prefix_append_right_inj (enc a)).mpr hrest
      | wait s rest =>
        rw [readAll_wait hdecode] at hprefix
        cases List.prefix_nil.mp hprefix
      | fail e =>
        rw [readAll_fail hdecode] at hprefix
        cases List.prefix_nil.mp hprefix
  · rintro ⟨haccepts, rest, rfl⟩
    rw [h.readAll_flatMap haccepts]
    exact List.prefix_append as _

end Decoder

end Distgard.Lib
