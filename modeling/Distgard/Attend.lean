import Distgard.Automata
import Distgard.Lib.Loop
import Distgard.Registry

/-!
# Attending to the queues

`attend_chunk_queues` first applies what growth and water have queued, and then empties the
four queues of slots to rebuild, one loop after the other: the slots to light anew, those the
user waits for, those next to new terrain, and the rest. While a loop serves its own queue it
also pops from those of the loops before it. A lightpass asks for more slots, and so does a
change that is applied.

## The model

* A loop is a step function that returns a panic or the next state; `AttendChunkQueues` runs the
  four of them.
* `Attending.log` writes down which slots were asked for and which rebuilt, in order. A slot that
  a lightpass asks for is written after the rebuild that the lightpass belongs to.

## What is proved

* `mesh_rebuild` — a slot that is written down as rebuilt has been given new vertex data.
* `Inv.serve`, `Inv.drain` — what serving one request and draining the changes do.
* `attendChunkQueues_drains` — the call returns with all queues empty, and every slot that was
  asked for before or meanwhile has been rebuilt since.
-/

namespace Distgard

open Lib

/-- A queue of slots to rebuild. -/
inductive Request where
  /-- Slots to light anew. -/
  | light
  /-- Slots the user waits for. -/
  | user
  /-- Slots next to terrain that was generated. -/
  | gen
  /-- All other slots. -/
  | background
  deriving DecidableEq

/-- What happens to a slot. -/
inductive Note where
  /-- It is asked for. -/
  | queued (index : ℕ)
  /-- It is rebuilt. -/
  | rebuilt (index : ℕ)
  deriving DecidableEq

namespace ChunkSystem

/-- The slots in a queue, the next one first. -/
def requests (cs : ChunkSystem) : Request → List ℕ
  | .light => cs.lightRebuildRequests
  | .user => cs.userRebuildRequests
  | .gen => cs.genRebuildRequests
  | .background => cs.backgroundRebuildRequests

/-- Replace a queue. -/
def setRequests (cs : ChunkSystem) (r : Request) (l : List ℕ) : ChunkSystem :=
  match r with
  | .light => { cs with lightRebuildRequests := l }
  | .user => { cs with userRebuildRequests := l }
  | .gen => { cs with genRebuildRequests := l }
  | .background => { cs with backgroundRebuildRequests := l }

/-- Take the next slot out of a queue. -/
def pop (r : Request) (cs : ChunkSystem) : Option (ℕ × ChunkSystem) :=
  match cs.requests r with
  | [] => none
  | index :: rest => some (index, cs.setRequests r rest)

/-- The slots the user waits for since an earlier state. -/
def requestedSince (cs cs' : ChunkSystem) : List ℕ := cs'.userRebuildRequests.drop cs.userRebuildRequests.length

end ChunkSystem

/-- The state of the call. -/
structure Attending where
  /-- The chunk system. -/
  csys : ChunkSystem
  /-- The changes that are queued. -/
  automata : List ACSet
  /-- How many accidents have been used up. -/
  calls : ℕ
  /-- What was asked for and rebuilt during the call. -/
  log : List Note

namespace Attending

variable (env : Externals) (e : ℕ → Entropy)

/-- Rebuild a slot. -/
def rebuild (index : ℕ) (userPower light : Bool) (s : Attending) : Except Panic Attending :=
  match s.csys.rebuildIndex env (e s.calls) index userPower light with
  | .error p => .error p
  | .ok cs => .ok ⟨cs, s.automata, s.calls + 1,
      s.log ++ .rebuilt index :: (s.csys.requestedSince cs).map .queued⟩

/-- **A note of a rebuild stands for one**: the slot has the vertex data of the chunk that it holds, made
of the blocks and of the light at the end of the call. -/
theorem mesh_rebuild {s s' : Attending} {index : ℕ} {userPower light : Bool}
    (h : rebuild env e index userPower light s = .ok s') :
    .rebuilt index ∈ s'.log.drop s.log.length ∧ ∃ chunk geo,
      s'.csys.chunks[index]? = some chunk ∧ s'.csys.geobank[index]? = some geo ∧
      geo.mesh = env.mesh s'.csys.blockat s'.csys.lightmap chunk.pos (e s.calls).rng := by
  unfold rebuild at h
  split at h
  · cases h
  · next cs hcs =>
    cases h
    obtain ⟨chunk, geo, hslot, hbank, heq⟩ := ChunkSystem.rebuildIndex_spec hcs
    have hchunk := (List.getElem?_eq_some_iff.mp hslot).1
    have hgeo := (List.getElem?_eq_some_iff.mp hbank).1
    refine ⟨by simp, { chunk with used := true }, { geo with mesh := _ }, ?_, ?_, rfl⟩
    · rw [heq]
      exact List.getElem?_set_self hchunk
    · rw [heq]
      exact List.getElem?_set_self hgeo

/-- Apply the changes that are queued. -/
def drain (s : Attending) : Attending :=
  let cs := Automata.drainAutomata (e s.calls) s.csys s.automata
  ⟨cs, [], s.calls + 1, s.log ++ (s.csys.requestedSince cs).map .queued⟩

/-- Serve the next request of a queue, if there is one. -/
def serve (r : Request) (userPower light : Bool) (s : Attending) : Option (Except Panic Attending) :=
  match s.csys.pop r with
  | none => none
  | some (index, cs) => some (rebuild env e index userPower light { s with csys := cs })

/-- Serve the next slot to light anew, and apply the changes that are queued. -/
def serveLight (s : Attending) : Option (Except Panic Attending) :=
  (serve env e .light true true s).map fun r => r.map (drain e)

/-- Serve a request if there is one. -/
def also (round : Attending → Option (Except Panic Attending)) (s : Attending) : Except Panic Attending :=
  (round s).getD (.ok s)

/-- A loop goes on unless it has panicked. -/
def going (round : Attending → Option (Except Panic Attending)) :
    Except Panic Attending → Option (Except Panic Attending)
  | .error _ => none
  | .ok s => round s

/-- How many slots next to new terrain are waiting. -/
def waiting : Except Panic Attending → ℕ
  | .error _ => 0
  | .ok s => s.csys.genRebuildRequests.length + 1

theorem going_gen_decreases : Loop.Decreases (going (serve env e .gen true false)) waiting := by
  rintro (p | s) out h
  · cases h
  · unfold going serve ChunkSystem.pop ChunkSystem.requests at h
    match hgen : s.csys.genRebuildRequests with
    | [] =>
      simp only [hgen] at h
      cases h
    | index :: rest =>
      simp only [hgen, Option.some.injEq] at h
      subst h
      unfold rebuild
      split
      · exact Nat.succ_pos _
      · next cs hcs =>
        obtain ⟨chunk, geo, -, -, heq⟩ := ChunkSystem.rebuildIndex_spec hcs
        have hrest : cs.genRebuildRequests = rest := by
          rw [heq]
          rfl
        simp only [waiting, hrest, hgen, List.length_cons]
        omega

/-- Serve all slots next to new terrain, if there is one. -/
def serveGens (s : Attending) : Option (Except Panic Attending) :=
  (serve env e .gen true false s).map
    (Loop.exec (going (serve env e .gen true false)) waiting (going_gen_decreases env e))

/-- One round of the loop for the user: one slot, and one to light anew. -/
def userRound (s : Attending) : Option (Except Panic Attending) :=
  (serve env e .user true false s).map fun r => r.bind (also (serveLight env e))

/-- One round of the loop for new terrain: one slot, one for the user and one to light anew. -/
def genRound (s : Attending) : Option (Except Panic Attending) :=
  (serve env e .gen true false s).map fun r =>
    (r.bind (also (serve env e .user true false))).bind (also (serveLight env e))

/-- One round of the last loop: one slot, one for the user, one to light anew, and all next to new
terrain. -/
def backgroundRound (s : Attending) : Option (Except Panic Attending) :=
  (serve env e .background false false s).map fun r =>
    ((r.bind (also (serve env e .user true false))).bind (also (serveLight env e))).bind (also (serveGens env e))

/-- Attending to the queues ends like this. -/
def AttendChunkQueues (s : Attending) (out : Except Panic Attending) : Prop :=
  ∃ k₁ k₂ k₃ k₄ lit used generated,
    Loop.Ends (going (serveLight env e)) k₁ (.ok (s.drain e)) lit ∧
    Loop.Ends (going (userRound env e)) k₂ lit used ∧
    Loop.Ends (going (genRound env e)) k₃ used generated ∧
    Loop.Ends (going (backgroundRound env e)) k₄ generated out

/-- A call starts with nothing written down. -/
def start (cs : ChunkSystem) (automata : List ACSet) : Attending := ⟨cs, automata, 0, []⟩

end Attending

/-! ### What is asked for -/

/-- A slot that was asked for has been rebuilt since, or is still waiting. -/
def Answered (waits : ℕ → Prop) : List Note → Prop
  | [] => True
  | .queued i :: log => (.rebuilt i ∈ log ∨ waits i) ∧ Answered waits log
  | .rebuilt _ :: log => Answered waits log

theorem answered_queued {waits : ℕ → Prop} {slots : List ℕ} (h : ∀ i ∈ slots, waits i) :
    Answered waits (slots.map .queued) := by
  induction slots with
  | nil => exact trivial
  | cons i slots ih =>
    obtain ⟨hi, hslots⟩ := List.forall_mem_cons.mp h
    exact ⟨.inr hi, ih hslots⟩

/-- What was waiting has been rebuilt, or is still waiting, when more has happened. -/
theorem Answered.append {waits waits' : ℕ → Prop} {log new : List Note} (h : Answered waits log)
    (hwaits : ∀ i, waits i → .rebuilt i ∈ new ∨ waits' i) (hnew : Answered waits' new) :
    Answered waits' (log ++ new) := by
  induction log with
  | nil => exact hnew
  | cons note log ih =>
    cases note with
    | queued i =>
      obtain ⟨hi, hlog⟩ := h
      refine ⟨?_, ih hlog⟩
      rcases hi with hi | hi
      · exact .inl (List.mem_append_left _ hi)
      · exact (hwaits i hi).imp_left (List.mem_append_right _)
    | rebuilt i => exact ih h

namespace ChunkSystem

variable {env : Externals} {e : Entropy} {cs cs' : ChunkSystem}

/-- Some queue has the slot. -/
def Waits (cs : ChunkSystem) (i : ℕ) : Prop := ∃ r, i ∈ cs.requests r

/-- All slots that are spoken of are in the pool. -/
structure InPool (cs : ChunkSystem) : Prop where
  /-- There is vertex data for each slot. -/
  bank : cs.geobank.length = cs.chunks.length
  /-- A slot has a number of the pool. -/
  chunks : ∀ c ∈ cs.chunks, c.geoIndex < cs.chunks.length
  /-- So has a slot that is registered. -/
  registered : ∀ p f, cs.takencare.lookup p = some f → f.geoIndex < cs.chunks.length
  /-- So has a slot that is asked for. -/
  requests : ∀ r, ∀ i ∈ cs.requests r, i < cs.chunks.length

/-- Where the registry is bijective, only the queues can speak of slots outside of the pool. -/
theorem InPool.of_bijective (h : cs.registry.Bijective) (hrequests : ∀ r, ∀ i ∈ cs.requests r, i < cs.chunks.length) :
    cs.InPool := by
  refine ⟨?_, ?_, ?_, hrequests⟩
  · have hlength := h.length
    simp only [registry, List.length_map] at hlength
    exact hlength
  · intro c hc
    obtain ⟨i, hlt, rfl⟩ := List.mem_iff_getElem.mp hc
    rw [h.index i _ (List.getElem?_eq_getElem hlt)]
    exact hlt
  · intro p f hf
    obtain ⟨-, c, hc, -⟩ := h.held p f hf
    exact (List.getElem?_eq_some_iff.mp hc).1

@[simp] theorem requests_setRequests (r r' : Request) (l : List ℕ) :
    (cs.setRequests r l).requests r' = if r' = r then l else cs.requests r' := by cases r <;> cases r' <;> rfl

theorem chunks_setRequests (r : Request) (l : List ℕ) : (cs.setRequests r l).chunks = cs.chunks := by cases r <;> rfl

/-- Taking a slot out of a queue leaves all in the pool. -/
theorem InPool.setRequests (h : cs.InPool) (r : Request) {l : List ℕ} (hl : ∀ i ∈ l, i ∈ cs.requests r) :
    (cs.setRequests r l).InPool := by
  have hrequests : ∀ r', ∀ i ∈ (cs.setRequests r l).requests r', i < (cs.setRequests r l).chunks.length := by
    intro r' i hi
    rw [requests_setRequests] at hi
    rw [chunks_setRequests]
    split at hi
    · exact h.requests r i (hl i hi)
    · exact h.requests r' i hi
  cases r with
  | light => exact ⟨h.bank, h.chunks, h.registered, hrequests⟩
  | user => exact ⟨h.bank, h.chunks, h.registered, hrequests⟩
  | gen => exact ⟨h.bank, h.chunks, h.registered, hrequests⟩
  | background => exact ⟨h.bank, h.chunks, h.registered, hrequests⟩

/-- The user waits for more slots, and the other queues are as they were. -/
structure Fed (cs cs' : ChunkSystem) (slots : List ℕ) : Prop where
  /-- The slots are added. -/
  user : cs'.requests .user = cs.requests .user ++ slots
  /-- The other queues. -/
  others : ∀ r, r ≠ .user → cs'.requests r = cs.requests r

theorem Fed.requestedSince {slots : List ℕ} (h : Fed cs cs' slots) : cs.requestedSince cs' = slots := by
  have huser : cs'.userRebuildRequests = cs.userRebuildRequests ++ slots := h.user
  rw [ChunkSystem.requestedSince, huser, List.drop_left]

/-- What waited still waits. -/
theorem Fed.waits {slots : List ℕ} (h : Fed cs cs' slots) {i : ℕ} (hi : cs.Waits i) : cs'.Waits i := by
  obtain ⟨r, hr⟩ := hi
  refine ⟨r, ?_⟩
  by_cases hu : r = .user
  · subst hu
    rw [h.user]
    exact List.mem_append_left _ hr
  · rw [h.others r hu]
    exact hr

/-- The slots that are added wait. -/
theorem Fed.waits_new {slots : List ℕ} (h : Fed cs cs' slots) {i : ℕ} (hi : i ∈ slots) : cs'.Waits i :=
  ⟨.user, by rw [h.user]; exact List.mem_append_right _ hi⟩

theorem Fed.requests_lt {slots : List ℕ} (h : Fed cs cs' slots) (hcs : cs.InPool)
    (hslots : ∀ i ∈ slots, i < cs.chunks.length) (r : Request) : ∀ i ∈ cs'.requests r, i < cs.chunks.length := by
  intro i hi
  by_cases hu : r = .user
  · subst hu
    rw [h.user] at hi
    exact (List.mem_append.mp hi).elim (hcs.requests .user i) (hslots i)
  · rw [h.others r hu] at hi
    exact hcs.requests r i hi

/-- **A rebuild** of a slot of the pool returns, and asks for slots only if it lights the chunk. -/
theorem InPool.rebuildIndex (h : cs.InPool) {index : ℕ} (hindex : index < cs.chunks.length) (env : Externals)
    (e : Entropy) (userPower light : Bool) :
    ∃ cs' slots, cs.rebuildIndex env e index userPower light = .ok cs' ∧ cs'.InPool ∧ Fed cs cs' slots ∧
      (light = false → slots = []) := by
  obtain ⟨cs', hcs'⟩ := rebuildIndex_returns env e hindex (h.bank ▸ hindex) userPower light
  obtain ⟨chunk, geo, hslot, -, heq⟩ := rebuildIndex_spec hcs'
  obtain ⟨slots, hslots, hlt, hdark⟩ : ∃ slots,
      (cs.lightpassIf e light chunk.pos).userRebuildRequests = cs.userRebuildRequests ++ slots ∧
        (∀ i ∈ slots, i < cs.chunks.length) ∧ (light = false → slots = []) := by
    cases light with
    | false => exact ⟨[], (List.append_nil _).symm, fun i hi => absurd hi List.not_mem_nil, fun _ => rfl⟩
    | true =>
      refine ⟨_, rfl, ?_, fun h => by cases h⟩
      intro i hi
      obtain ⟨key, -, cf, hcf, rfl⟩ := mem_slotsOf.mp hi
      exact h.registered key cf hcf
  have hfed : Fed cs cs' slots := by
    constructor
    · rw [heq]
      exact hslots
    · intro r hr
      rw [heq]
      cases r with
      | user => exact absurd rfl hr
      | light => rfl
      | gen => rfl
      | background => rfl
  have hlength : cs'.chunks.length = cs.chunks.length := by
    rw [heq]
    exact List.length_set
  refine ⟨cs', slots, hcs', ⟨?_, ?_, ?_, ?_⟩, hfed, hdark⟩
  · rw [hlength, heq]
    exact List.length_set.trans h.bank
  · intro c hc
    rw [hlength]
    rw [heq] at hc
    rcases List.mem_or_eq_of_mem_set hc with hc | rfl
    · exact h.chunks c hc
    · exact h.chunks chunk (List.mem_of_getElem? hslot)
  · intro p f hf
    rw [hlength]
    rw [heq] at hf
    simp only at hf
    split at hf
    · exact h.registered p f hf
    · rw [HashMap.lookup_insert'] at hf
      split at hf
      · cases hf
        exact h.chunks chunk (List.mem_of_getElem? hslot)
      · exact h.registered p f hf
  · rw [hlength]
    exact hfed.requests_lt h hlt

/-- Changes touch the blocks that nobody set, and nothing else. -/
theorem applySets_eq (s : ChunkSystem × HashSet IVec2) (queue : List ACSet) :
    ∃ blocks, (queue.foldl Automata.applySet s).1 = { s.1 with nonuserdatamap := blocks } := by
  have hchange : ∀ (s : ChunkSystem × HashSet IVec2) (c : AutomataChange),
      ∃ blocks, (Automata.applyChange s c).1 = { s.1 with nonuserdatamap := blocks } := by
    intro s c
    unfold Automata.applyChange
    split
    · exact ⟨_, rfl⟩
    · exact ⟨_, rfl⟩
  refine foldl_induct (fun t : ChunkSystem × HashSet IVec2 => ∃ blocks, t.1 = { s.1 with nonuserdatamap := blocks })
    queue ?_ ⟨_, rfl⟩
  rintro t set - ⟨blocks, ht⟩
  obtain ⟨blocks₁, h₁⟩ := hchange t set.changes.1
  obtain ⟨blocks₂, h₂⟩ := hchange (Automata.applyChange t set.changes.1) set.changes.2
  exact ⟨blocks₂, by rw [Automata.applySet, h₂, h₁, ht]⟩

/-- **Draining the changes** asks for the chunks that were changed, for the user. -/
theorem InPool.drainAutomata (h : cs.InPool) (e : Entropy) (queue : List ACSet) :
    ∃ slots, (Automata.drainAutomata e cs queue).InPool ∧ Fed cs (Automata.drainAutomata e cs queue) slots := by
  obtain ⟨blocks, hblocks⟩ := applySets_eq (cs, []) queue
  have heq : Automata.drainAutomata e cs queue = { cs with
      nonuserdatamap := blocks
      userRebuildRequests :=
        cs.userRebuildRequests ++ cs.slotsOf (e.chunks.iter (queue.foldl Automata.applySet (cs, [])).2) } := by
    rw [Automata.drainAutomata, foldl_queueRerenderWithKey, hblocks]
    rfl
  have hfed : Fed cs (Automata.drainAutomata e cs queue)
      (cs.slotsOf (e.chunks.iter (queue.foldl Automata.applySet (cs, [])).2)) := by
    rw [heq]
    refine ⟨rfl, ?_⟩
    intro r hr
    cases r with
    | user => exact absurd rfl hr
    | light => rfl
    | gen => rfl
    | background => rfl
  have hslots : ∀ i ∈ cs.slotsOf (e.chunks.iter (queue.foldl Automata.applySet (cs, [])).2), i < cs.chunks.length := by
    intro i hi
    obtain ⟨key, -, cf, hcf, rfl⟩ := mem_slotsOf.mp hi
    exact h.registered key cf hcf
  have hrequests := hfed.requests_lt h hslots
  refine ⟨_, ?_, hfed⟩
  rw [heq] at hrequests ⊢
  exact ⟨h.bank, h.chunks, h.registered, hrequests⟩

theorem drainAutomata_nil (e : Entropy) (cs : ChunkSystem) : Automata.drainAutomata e cs [] = cs := by
  simp [Automata.drainAutomata]

end ChunkSystem

namespace Attending

open ChunkSystem

variable {env : Externals} {e : ℕ → Entropy} {first : List ℕ} {s : Attending}

/-! ### The invariant -/

/-- What holds all the time. -/
structure Inv (first : List ℕ) (s : Attending) : Prop where
  /-- All slots are in the pool. -/
  inPool : s.csys.InPool
  /-- The slots that were asked for at first have been rebuilt, or wait. -/
  first : ∀ i ∈ first, .rebuilt i ∈ s.log ∨ s.csys.Waits i
  /-- So have those that were asked for later. -/
  answered : Answered s.csys.Waits s.log

/-- More has happened, and nothing was forgotten. -/
theorem Inv.append (h : Inv first s) {cs : ChunkSystem} {automata : List ACSet} {calls : ℕ} {new : List Note}
    (hcs : cs.InPool) (hwaits : ∀ i, s.csys.Waits i → .rebuilt i ∈ new ∨ cs.Waits i) (hnew : Answered cs.Waits new) :
    Inv first ⟨cs, automata, calls, s.log ++ new⟩ := by
  refine ⟨hcs, ?_, h.answered.append hwaits hnew⟩
  intro i hi
  rcases h.first i hi with hi | hi
  · exact .inl (List.mem_append_left _ hi)
  · exact (hwaits i hi).imp_left (List.mem_append_right _)

/-- **Draining** keeps the invariant. -/
theorem Inv.drain (h : Inv first s) (e : ℕ → Entropy) : Inv first (s.drain e) := by
  obtain ⟨slots, hpool, hfed⟩ := h.inPool.drainAutomata (e s.calls) s.automata
  refine h.append hpool (fun i hi => .inr (hfed.waits hi)) ?_
  rw [hfed.requestedSince]
  exact answered_queued fun i => hfed.waits_new

/-- Draining with nothing queued changes no queue. -/
theorem csys_drain_of_nil (hs : s.automata = []) : (s.drain e).csys = s.csys := by
  rw [Attending.drain, hs]
  exact drainAutomata_nil _ _

/-- What serving a request does: it is taken out, and the user may wait for more. -/
structure Served (r : Request) (rest : List ℕ) (light : Bool) (s s' : Attending) : Prop where
  /-- The changes that are queued are left. -/
  automata : s'.automata = s.automata
  /-- The queues. -/
  fed : ∃ slots, Fed (s.csys.setRequests r rest) s'.csys slots ∧ (light = false → slots = [])

theorem serve_of_nil {r : Request} (hr : s.csys.requests r = []) (userPower light : Bool) :
    serve env e r userPower light s = none := by
  unfold serve pop
  rw [hr]

/-- **Serving** the next request of a queue returns, and keeps the invariant. -/
theorem Inv.serve (h : Inv first s) (env : Externals) (e : ℕ → Entropy) {r : Request} {index : ℕ} {rest : List ℕ}
    (hr : s.csys.requests r = index :: rest)
    (userPower light : Bool) : ∃ s', serve env e r userPower light s = some (.ok s') ∧ Inv first s' ∧
      Served r rest light s s' := by
  have hpopped : (s.csys.setRequests r rest).InPool :=
    h.inPool.setRequests r fun i hi => by rw [hr]; exact List.mem_cons_of_mem _ hi
  have hindex : index < (s.csys.setRequests r rest).chunks.length := by
    rw [chunks_setRequests]
    exact h.inPool.requests r index (by rw [hr]; exact List.mem_cons_self ..)
  obtain ⟨cs', slots, hcs', hpool, hfed, hdark⟩ := hpopped.rebuildIndex hindex env (e s.calls) userPower light
  have hserve : Attending.serve env e r userPower light s = some (.ok ⟨cs', s.automata, s.calls + 1,
      s.log ++ .rebuilt index :: slots.map .queued⟩) := by
    unfold Attending.serve pop rebuild
    rw [hr]
    simp only [hcs', hfed.requestedSince]
  refine ⟨_, hserve, ?_, rfl, slots, hfed, hdark⟩
  refine h.append hpool ?_ (answered_queued fun i => hfed.waits_new)
  rintro i ⟨r', hi⟩
  by_cases hi' : i = index
  · subst hi'
    exact .inl (List.mem_cons_self ..)
  · refine .inr (hfed.waits ⟨r', ?_⟩)
    rw [requests_setRequests]
    split
    · next hr' =>
      rw [hr', hr] at hi
      exact (List.mem_cons.mp hi).resolve_left hi'
    · exact hi

/-! ### One loop after the other -/

/-- No change is queued, and the queues of the loops that have ended are empty. -/
structure Phase (first : List ℕ) (done : List Request) (s : Attending) : Prop extends Inv first s where
  /-- No change is queued. -/
  automata : s.automata = []
  /-- These queues are empty. -/
  empty : ∀ r ∈ done, s.csys.requests r = []

variable {done : List Request} {round : Attending → Option (Except Panic Attending)} {r : Request}

/-- A round serves its queue, and does not undo what the loops before have done. -/
def Advances (first : List ℕ) (done : List Request) (r : Request)
    (round : Attending → Option (Except Panic Attending)) : Prop :=
  ∀ s, Phase first done s →
    (s.csys.requests r = [] → round s = none) ∧
    (s.csys.requests r ≠ [] → ∃ s', round s = some (.ok s') ∧ Phase first done s' ∧
      (s'.csys.requests r).length < (s.csys.requests r).length)

/-- **A loop** of such rounds ends, and leaves its queue empty. -/
theorem Phase.loop (h : Phase first done s) (hround : Advances first done r round) :
    ∃ k s', Loop.Ends (going round) k (.ok s) (.ok s') ∧ Phase first (r :: done) s' := by
  obtain ⟨k, out, hk, ⟨s', rfl, hs'⟩, hnone⟩ := Loop.ends_of_measure (going round)
    (I := fun out => ∃ s, out = .ok s ∧ Phase first done s)
    (fun out => match out with | .error _ => 0 | .ok s => (s.csys.requests r).length)
    (by
      rintro _ out ⟨s, rfl, hs⟩ hstep
      by_cases hr : s.csys.requests r = []
      · rw [going, (hround s hs).1 hr] at hstep
        cases hstep
      · obtain ⟨s', hs', hphase, hlt⟩ := (hround s hs).2 hr
        rw [going, hs', Option.some.injEq] at hstep
        subst hstep
        exact ⟨⟨s', rfl, hphase⟩, hlt⟩)
    ⟨s, rfl, h⟩
  refine ⟨k, s', hk, hs'.toInv, hs'.automata, ?_⟩
  intro r' hr'
  rcases List.mem_cons.mp hr' with rfl | hr'
  · by_contra hne
    obtain ⟨s'', hs'', -⟩ := (hround s' hs').2 hne
    rw [going, hs''] at hnone
    cases hnone
  · exact hs'.empty r' hr'

/-- Serving a request without lighting a chunk takes it out, and changes no other queue. -/
theorem Phase.serve (h : Phase first done s) (env : Externals) (e : ℕ → Entropy) (hr : s.csys.requests r ≠ [])
    (hdone : r ∉ done) (userPower : Bool) :
    ∃ s', Attending.serve env e r userPower false s = some (.ok s') ∧ Phase first done s' ∧
      (s'.csys.requests r).length < (s.csys.requests r).length := by
  obtain ⟨index, rest, hr⟩ := List.exists_cons_of_ne_nil hr
  obtain ⟨s', hs', hinv, hautomata, slots, hfed, hdark⟩ := h.toInv.serve env e hr userPower false
  obtain rfl := hdark rfl
  have hsame : ∀ r', s'.csys.requests r' = if r' = r then rest else s.csys.requests r' := by
    intro r'
    rw [← requests_setRequests]
    by_cases hu : r' = .user
    · subst hu
      rw [hfed.user, List.append_nil]
    · exact hfed.others r' hu
  refine ⟨s', hs', ⟨hinv, hautomata.trans h.automata, ?_⟩, ?_⟩
  · intro r' hr'
    have hne : r' ≠ r := by
      rintro rfl
      exact hdone hr'
    rw [hsame, if_neg hne, h.empty r' hr']
  · rw [hsame, if_pos rfl, hr]
    exact Nat.lt_succ_self _

/-- The loop for the slots to light anew. -/
theorem advances_light (env : Externals) (e : ℕ → Entropy) (first : List ℕ) :
    Advances first [] .light (serveLight env e) := by
  intro s hs
  constructor
  · intro hr
    rw [serveLight, serve_of_nil hr]
    rfl
  · intro hr
    obtain ⟨index, rest, hr⟩ := List.exists_cons_of_ne_nil hr
    obtain ⟨s', hs', hinv, hautomata, slots, hfed, -⟩ := hs.toInv.serve env e hr true true
    refine ⟨s'.drain e, ?_, ⟨hinv.drain e, rfl, fun r hr => absurd hr List.not_mem_nil⟩, ?_⟩
    · rw [serveLight, hs']
      rfl
    · rw [csys_drain_of_nil (hautomata.trans hs.automata), hfed.others _ (by decide), requests_setRequests, if_pos rfl, hr]
      exact Nat.lt_succ_self _

/-- A request of a queue that is empty is not served. -/
theorem also_of_nil (hround : round s = none) : also round s = .ok s := by
  rw [also, hround]
  rfl

/-- With no slot to light anew, none is. -/
theorem Phase.also_light (h : Phase first done s) (hdone : .light ∈ done) : also (serveLight env e) s = .ok s := by
  apply also_of_nil
  rw [serveLight, serve_of_nil (h.empty _ hdone)]
  rfl

/-- With no slot that the user waits for, none is served. -/
theorem Phase.also_user (h : Phase first done s) (hdone : .user ∈ done) :
    also (Attending.serve env e .user true false) s = .ok s :=
  also_of_nil (serve_of_nil (h.empty _ hdone) true false)

/-- The loop for the user. -/
theorem advances_user (env : Externals) (e : ℕ → Entropy) (first : List ℕ) :
    Advances first [.light] .user (userRound env e) := by
  intro s hs
  constructor
  · intro hr
    rw [userRound, serve_of_nil hr]
    rfl
  · intro hr
    obtain ⟨s', hs', hphase, hlt⟩ := hs.serve env e hr (by decide) true
    refine ⟨s', ?_, hphase, hlt⟩
    rw [userRound, hs']
    exact congrArg some (hphase.also_light (by decide))

/-- The loop for new terrain. -/
theorem advances_gen (env : Externals) (e : ℕ → Entropy) (first : List ℕ) :
    Advances first [.user, .light] .gen (genRound env e) := by
  intro s hs
  constructor
  · intro hr
    rw [genRound, serve_of_nil hr]
    rfl
  · intro hr
    obtain ⟨s', hs', hphase, hlt⟩ := hs.serve env e hr (by decide) true
    refine ⟨s', ?_, hphase, hlt⟩
    rw [genRound, hs']
    simp only [Option.map_some, Except.bind, hphase.also_user (by decide), hphase.also_light (by decide)]

/-- The last loop. -/
theorem advances_background (env : Externals) (e : ℕ → Entropy) (first : List ℕ) :
    Advances first [.gen, .user, .light] .background (backgroundRound env e) := by
  intro s hs
  constructor
  · intro hr
    rw [backgroundRound, serve_of_nil hr]
    rfl
  · intro hr
    obtain ⟨s', hs', hphase, hlt⟩ := hs.serve env e hr (by decide) false
    have hgens : also (serveGens env e) s' = .ok s' := by
      apply also_of_nil
      rw [serveGens, serve_of_nil (hphase.empty _ (by decide))]
      rfl
    refine ⟨s', ?_, hphase, hlt⟩
    rw [backgroundRound, hs']
    simp only [Option.map_some, Except.bind, hphase.also_user (by decide), hphase.also_light (by decide), hgens]

/-- A call ends in one way. -/
theorem AttendChunkQueues.unique {out out' : Except Panic Attending} (h : AttendChunkQueues env e s out)
    (h' : AttendChunkQueues env e s out') : out = out' := by
  obtain ⟨k₁, k₂, k₃, k₄, lit, used, generated, h₁, h₂, h₃, h₄⟩ := h
  obtain ⟨k₁', k₂', k₃', k₄', lit', used', generated', h₁', h₂', h₃', h₄'⟩ := h'
  obtain rfl := (h₁.unique h₁').2
  obtain rfl := (h₂.unique h₂').2
  obtain rfl := (h₃.unique h₃').2
  exact (h₄.unique h₄').2

/-- **All queues are drained**: whatever they hold, with all slots in the pool, the call returns,
and in one way only. All five queues are empty then; every slot that waited before has been
rebuilt, and every slot that was asked for meanwhile has been rebuilt since. What a note of a rebuild
stands for is said in `mesh_rebuild`. -/
theorem attendChunkQueues_drains (env : Externals) (e : ℕ → Entropy) (cs : ChunkSystem) (automata : List ACSet)
    (hpool : cs.InPool) :
    ∃ s', AttendChunkQueues env e (start cs automata) (.ok s') ∧
      (∀ out, AttendChunkQueues env e (start cs automata) out → out = .ok s') ∧
      s'.automata = [] ∧ (∀ r, s'.csys.requests r = []) ∧
      (∀ r, ∀ i ∈ cs.requests r, .rebuilt i ∈ s'.log) ∧ Answered (fun _ => False) s'.log := by
  have hstart : Inv ([Request.light, .user, .gen, .background].flatMap cs.requests) (start cs automata) := by
    refine ⟨hpool, ?_, trivial⟩
    intro i hi
    obtain ⟨r, -, hr⟩ := List.mem_flatMap.mp hi
    exact .inr ⟨r, hr⟩
  have h₀ : Phase _ [] ((start cs automata).drain e) :=
    ⟨hstart.drain e, rfl, fun r hr => absurd hr List.not_mem_nil⟩
  obtain ⟨k₁, s₁, hk₁, h₁⟩ := h₀.loop (advances_light env e _)
  obtain ⟨k₂, s₂, hk₂, h₂⟩ := h₁.loop (advances_user env e _)
  obtain ⟨k₃, s₃, hk₃, h₃⟩ := h₂.loop (advances_gen env e _)
  obtain ⟨k₄, s₄, hk₄, h₄⟩ := h₃.loop (advances_background env e _)
  have hattend : AttendChunkQueues env e (start cs automata) (.ok s₄) :=
    ⟨k₁, k₂, k₃, k₄, _, _, _, hk₁, hk₂, hk₃, hk₄⟩
  have hall : ∀ r : Request, r ∈ [Request.background, .gen, .user, .light] := by
    intro r
    cases r <;> decide
  have hempty : ∀ r, s₄.csys.requests r = [] := fun r => h₄.empty r (hall r)
  have hwaits : ∀ i, ¬ s₄.csys.Waits i := by
    rintro i ⟨r, hr⟩
    rw [hempty] at hr
    cases hr
  refine ⟨s₄, hattend, fun out h => h.unique hattend, h₄.automata, hempty, ?_, ?_⟩
  · intro r i hi
    have hfirst : i ∈ [Request.light, .user, .gen, .background].flatMap cs.requests :=
      List.mem_flatMap.mpr ⟨r, by cases r <;> decide, hi⟩
    exact (h₄.first i hfirst).resolve_right (hwaits i)
  · have hanswered : Answered (fun _ => False) (s₄.log ++ []) := h₄.answered.append
      (fun i hi => absurd hi (hwaits i)) trivial
    rwa [List.append_nil] at hanswered

/-- A fresh system, in which some slots are asked for. -/
def busy : ChunkSystem :=
  { ChunkSystem.new .plain 1 0 0 false with
    lightRebuildRequests := [0, 7]
    userRebuildRequests := [3]
    genRebuildRequests := [7]
    backgroundRebuildRequests := [1, 3] }

/-- They are all rebuilt, after snow has fallen on grass. -/
theorem attendChunkQueues_drains_busy :
    ∃ s', AttendChunkQueues .plain (fun _ => .plain) (start busy [⟨1, ⟨3, ⟨0, 5, 0⟩, 48⟩, ⟨3, ⟨0, 5, 0⟩, 48⟩⟩]) (.ok s') ∧
      (∀ r, s'.csys.requests r = []) ∧ .rebuilt 3 ∈ s'.log := by
  have hpool : busy.InPool := by
    apply InPool.of_bijective
    · exact bijective_new .plain 1 0 0 false none
    · have hlength : busy.chunks.length = 49 := by
        rw [busy, ChunkSystem.new]
        simp only [Bool.false_eq_true, if_false, freshChunks, List.length_map, List.length_range]
        decide
      rw [hlength]
      intro r
      cases r <;> decide
  obtain ⟨s', hattend, -, -, hempty, hrebuilt, -⟩ := attendChunkQueues_drains .plain (fun _ => .plain) busy _ hpool
  exact ⟨s', hattend, hempty, hrebuilt .user 3 (by decide)⟩

end Attending

end Distgard
