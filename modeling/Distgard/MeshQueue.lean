import Distgard.Lib.Lanes
import Distgard.Rebuild

/-!
# The two queues of rebuilt chunks

A rebuild puts the news of the slot's new vertex data at the end of one of two queues: the
user's, or the other. The drawing loop takes news from both, and remembers of each slot what
the news said: how much there is to draw, and where.

## The model

`drawQueues` is the part of `draw` that takes news: one from the user's queue, one from the
other, and after that all that the user's queue still holds. It panics if the news are about
a slot that does not exist. What it hands to the graphics library is left out.

The abstract model is `Lib.Lanes`: a log of all news, and queues of places in it. `Sim` ties
the two together: the queues hold what the log has at their places, the memory of a slot is
that of the news shown, and the latest news of a slot tell the lengths of its vertex data.

## What is proved

* `drawQueues_spec` — what a turn of the drawing loop does.
* `Sim.changed`, `Sim.rebuilt`, `Sim.drawn` — each step keeps the simulation.
* `drawn_latest` — in every run of rebuilds and turns that are in order, once both queues are
  empty, the memory of a slot is what its latest news said, and fits its vertex data.
* `drawQueues_staleMesh` — the queues are not in order by themselves: the news of a rebuild
  for the user are taken before older ones of a move.
-/

namespace Distgard

open Lib

/-- What the drawing loop remembers of a slot after news of it. -/
def ChunkMemory.of (ready : ReadyMesh) : ChunkMemory :=
  ⟨true, ready.newlength, ready.newtlength, ready.newvlength, ready.newwvlength, ready.newpos⟩

@[simp] theorem ChunkMemory.length_of (ready : ReadyMesh) : (ChunkMemory.of ready).length = ready.newlength := rfl

namespace ChunkSystem

/-! ### A turn of the drawing loop -/

/-- Take news of a slot: the vertex data of the slot is read, and its memory is written. -/
def receive (cs : ChunkSystem) (ready : ReadyMesh) : Except Panic ChunkSystem :=
  match cs.geobank[ready.geoIndex]?, cs.chunkMemories[ready.geoIndex]? with
  | some _, some _ => .ok { cs with chunkMemories := cs.chunkMemories.set ready.geoIndex (.of ready) }
  | _, _ => .error .index

/-- Take one from the user's queue, if there is one. -/
def popUser (cs : ChunkSystem) : Except Panic ChunkSystem :=
  match cs.finishedUserGeoQueue with
  | [] => .ok cs
  | ready :: rest => receive { cs with finishedUserGeoQueue := rest } ready

/-- Take all from the user's queue. -/
def drainUser (cs : ChunkSystem) : Except Panic ChunkSystem :=
  cs.finishedUserGeoQueue.foldlM receive { cs with finishedUserGeoQueue := [] }

/-- What a turn of the drawing loop takes from the queues. -/
def drawQueues (cs : ChunkSystem) : Except Panic ChunkSystem := do
  let cs ← cs.popUser
  match cs.finishedGeoQueue with
  | [] => .ok cs
  | ready :: rest => do
    let cs ← receive { cs with finishedGeoQueue := rest } ready
    cs.drainUser

/-! ### What a turn does -/

/-- The memories after news of a slot. -/
def note (memories : List ChunkMemory) (ready : ReadyMesh) : List ChunkMemory :=
  memories.set ready.geoIndex (.of ready)

/-- The news that a turn takes, in its order. -/
def takenNews (cs : ChunkSystem) : List ReadyMesh :=
  match cs.finishedGeoQueue with
  | [] => cs.finishedUserGeoQueue.take 1
  | ready :: _ => cs.finishedUserGeoQueue.take 1 ++ ready :: cs.finishedUserGeoQueue.drop 1

/-- The news that a turn leaves in the user's queue. -/
def userNewsLeft (cs : ChunkSystem) : List ReadyMesh :=
  match cs.finishedGeoQueue with
  | [] => cs.finishedUserGeoQueue.drop 1
  | _ :: _ => []

/-- What taking a list of news does. -/
structure Received (cs cs' : ChunkSystem) (news : List ReadyMesh) : Prop where
  /-- Only memories change. -/
  eq : cs' = { cs with chunkMemories := news.foldl note cs.chunkMemories }
  /-- The slots exist. -/
  inRange : ∀ ready ∈ news, ready.geoIndex < cs.chunkMemories.length

variable {cs cs' : ChunkSystem}

theorem foldl_note_length (news : List ReadyMesh) (memories : List ChunkMemory) :
    (news.foldl note memories).length = memories.length := by
  induction news generalizing memories with
  | nil => rfl
  | cons ready news ih => rw [List.foldl_cons, ih, note, List.length_set]

theorem receive_spec {ready : ReadyMesh} (h : cs.receive ready = .ok cs') : Received cs cs' [ready] := by
  unfold receive at h
  split at h
  · next hm =>
    cases h
    refine ⟨rfl, ?_⟩
    intro r hr
    rw [List.mem_singleton.mp hr]
    exact (List.getElem?_eq_some_iff.mp hm).1
  · cases h

theorem Received.append {cs'' : ChunkSystem} {first second : List ReadyMesh} (h : Received cs cs' first)
    (h' : Received cs' cs'' second) : Received cs cs'' (first ++ second) := by
  obtain ⟨rfl, hfirst⟩ := h
  obtain ⟨rfl, hsecond⟩ := h'
  have hlength := foldl_note_length first cs.chunkMemories
  refine ⟨by rw [List.foldl_append], ?_⟩
  intro ready hr
  rcases List.mem_append.mp hr with hr | hr
  · exact hfirst ready hr
  · simpa only [hlength] using hsecond ready hr

theorem foldlM_receive_spec {news : List ReadyMesh} (h : news.foldlM receive cs = .ok cs') : Received cs cs' news := by
  induction news generalizing cs with
  | nil =>
    cases h
    exact ⟨rfl, fun _ hr => absurd hr List.not_mem_nil⟩
  | cons ready news ih =>
    rw [List.foldlM_cons] at h
    cases hr : cs.receive ready with
    | error p => rw [hr] at h; cases h
    | ok mid =>
      rw [hr] at h
      exact (receive_spec hr).append (ih h)

theorem popUser_spec (h : cs.popUser = .ok cs') :
    Received { cs with finishedUserGeoQueue := cs.finishedUserGeoQueue.drop 1 } cs' (cs.finishedUserGeoQueue.take 1) := by
  unfold popUser at h
  split at h
  · next hq =>
    cases h
    have hempty : { cs with finishedUserGeoQueue := [] } = cs := by rw [← hq]
    rw [hq, List.take_nil, List.drop_nil, hempty]
    exact ⟨rfl, fun _ hr => absurd hr List.not_mem_nil⟩
  · next hq =>
    rw [hq]
    exact receive_spec h

/-- **What a turn does**: it takes news from the queues and writes memories. -/
theorem drawQueues_spec (h : cs.drawQueues = .ok cs') :
    Received { cs with finishedUserGeoQueue := cs.userNewsLeft, finishedGeoQueue := cs.finishedGeoQueue.drop 1 } cs'
      cs.takenNews := by
  unfold drawQueues at h
  cases hp : cs.popUser with
  | error p => rw [hp] at h; cases h
  | ok popped =>
    obtain ⟨rfl, hrange⟩ := popUser_spec hp
    rw [hp] at h
    simp only [bind, Except.bind] at h
    unfold takenNews userNewsLeft
    cases hq : cs.finishedGeoQueue with
    | nil =>
      simp only [hq] at h
      cases h
      rw [List.drop_nil]
      exact ⟨rfl, hrange⟩
    | cons ready rest =>
      simp only [hq] at h
      split at h
      · cases h
      · next received hr =>
        have hfirst : Received { cs with finishedUserGeoQueue := cs.finishedUserGeoQueue.drop 1, finishedGeoQueue := rest }
            { cs with
              finishedUserGeoQueue := cs.finishedUserGeoQueue.drop 1
              finishedGeoQueue := rest
              chunkMemories := (cs.finishedUserGeoQueue.take 1).foldl note cs.chunkMemories }
            (cs.finishedUserGeoQueue.take 1) := ⟨rfl, hrange⟩
        have hall := hfirst.append (receive_spec hr)
        obtain ⟨rfl, hrange⟩ := hall
        obtain ⟨rfl, hdrained⟩ := foldlM_receive_spec h
        have hbefore : Received { cs with finishedUserGeoQueue := [], finishedGeoQueue := rest } _
            (cs.finishedUserGeoQueue.take 1 ++ [ready]) := ⟨rfl, hrange⟩
        have hrest := hbefore.append ⟨rfl, hdrained⟩
        rw [List.append_assoc] at hrest
        exact hrest

theorem receive_returns {ready : ReadyMesh} (hgeo : ready.geoIndex < cs.geobank.length)
    (hmem : ready.geoIndex < cs.chunkMemories.length) : ∃ cs', cs.receive ready = .ok cs' := by
  unfold receive
  rw [List.getElem?_eq_getElem hgeo, List.getElem?_eq_getElem hmem]
  exact ⟨_, rfl⟩

theorem foldlM_receive_returns {news : List ReadyMesh}
    (h : ∀ ready ∈ news, ready.geoIndex < cs.geobank.length ∧ ready.geoIndex < cs.chunkMemories.length) :
    ∃ cs', news.foldlM receive cs = .ok cs' := by
  induction news generalizing cs with
  | nil => exact ⟨cs, rfl⟩
  | cons ready news ih =>
    obtain ⟨hgeo, hmem⟩ := h ready List.mem_cons_self
    obtain ⟨mid, hmid⟩ := receive_returns hgeo hmem
    obtain ⟨rfl, -⟩ := receive_spec hmid
    rw [List.foldlM_cons, hmid]
    apply ih
    intro r hr
    simpa [note] using h r (List.mem_cons_of_mem _ hr)

/-- A turn returns, if all news that wait are about slots that exist. -/
theorem drawQueues_returns (h : ∀ ready ∈ cs.finishedUserGeoQueue ++ cs.finishedGeoQueue,
    ready.geoIndex < cs.geobank.length ∧ ready.geoIndex < cs.chunkMemories.length) :
    ∃ cs', cs.drawQueues = .ok cs' := by
  obtain ⟨popped, hp⟩ : ∃ popped, cs.popUser = .ok popped := by
    unfold popUser
    cases hu : cs.finishedUserGeoQueue with
    | nil => exact ⟨cs, rfl⟩
    | cons ready rest =>
      obtain ⟨hgeo, hmem⟩ := h ready (by simp [hu])
      exact receive_returns hgeo hmem
  obtain ⟨rfl, -⟩ := popUser_spec hp
  unfold drawQueues
  rw [hp]
  simp only [bind, Except.bind]
  cases hg : cs.finishedGeoQueue with
  | nil => exact ⟨_, rfl⟩
  | cons ready rest =>
    obtain ⟨hgeo, hmem⟩ := h ready (by simp [hg])
    obtain ⟨mid, hmid⟩ : ∃ mid, receive
        { cs with
          finishedUserGeoQueue := cs.finishedUserGeoQueue.drop 1
          finishedGeoQueue := rest
          chunkMemories := (cs.finishedUserGeoQueue.take 1).foldl note cs.chunkMemories } ready = .ok mid :=
      receive_returns hgeo (by simpa only [foldl_note_length] using hmem)
    obtain ⟨rfl, -⟩ := receive_spec hmid
    simp only [hmid]
    apply foldlM_receive_returns
    intro r hr
    simpa [foldl_note_length, note] using h r (List.mem_append_left _ (List.mem_of_mem_drop hr))

/-! ### The simulation -/

/-- The queues hold what the log has at their places, the memory of a slot is that of the
news shown, and the latest news of a slot tell the lengths of its vertex data. -/
structure Sim (cs : ChunkSystem) (l : Lanes ReadyMesh ℕ) : Prop where
  /-- The user's queue. -/
  user : cs.finishedUserGeoQueue.map some = l.fast.map (l.log[·]?)
  /-- The other queue. -/
  other : cs.finishedGeoQueue.map some = l.slow.map (l.log[·]?)
  /-- The memories. -/
  memories : ∀ i k, l.shown i = some k → ∃ ready, l.log[k]? = some ready ∧ cs.chunkMemories[i]? = some (.of ready)
  /-- The vertex data. -/
  bank : ∀ i k ready, l.Latest ReadyMesh.geoIndex i k → l.log[k]? = some ready →
    ∃ geo, cs.geobank[i]? = some geo ∧ ready = ReadyMesh.new i ready.newpos geo.mesh

/-- Everything but the queues, the memories and the vertex data may have changed. -/
structure Changed (cs cs' : ChunkSystem) : Prop where
  /-- The user's queue is as it was. -/
  user : cs'.finishedUserGeoQueue = cs.finishedUserGeoQueue
  /-- The other queue is as it was. -/
  other : cs'.finishedGeoQueue = cs.finishedGeoQueue
  /-- The memories are as they were. -/
  memories : cs'.chunkMemories = cs.chunkMemories
  /-- The vertex data are as they were. -/
  meshes : cs'.geobank.map ChunkGeo.mesh = cs.geobank.map ChunkGeo.mesh

/-- The last news in the user's queue, or in the other. -/
def newest (cs : ChunkSystem) (userPower : Bool) : Option ReadyMesh :=
  if userPower then cs.finishedUserGeoQueue.getLast? else cs.finishedGeoQueue.getLast?

theorem changed_setBlock (cs : ChunkSystem) (spot : IVec3) (block : UInt32) (userPower : Bool) :
    Changed cs (cs.setBlock spot block userPower) := by
  unfold setBlock setBlockNoSound
  cases userPower <;> exact ⟨rfl, rfl, rfl, rfl⟩

theorem changed_place {index : ℕ} {cpos : IVec2} (h : cs.place index cpos = .ok cs') : Changed cs cs' := by
  obtain ⟨chunk, geo, -, hbank, rfl⟩ := place_spec h
  refine ⟨rfl, rfl, rfl, ?_⟩
  apply List.ext_getElem?
  intro i
  rw [List.getElem?_map, List.getElem?_map, List.getElem?_set]
  split
  · next hi =>
    subst hi
    rw [if_pos (List.getElem?_eq_some_iff.mp hbank).1, hbank]
    rfl
  · rfl

theorem changed_generateChunk {env : Externals} {e : Entropy} {cpos : IVec2}
    (h : cs.generateChunk env e cpos = .ok cs') : Changed cs cs' := by
  obtain ⟨rows, slots, rfl, -⟩ := generateChunk_spec h
  exact ⟨rfl, rfl, rfl, rfl⟩

variable {l : Lanes ReadyMesh ℕ}

theorem Sim.start (huser : cs.finishedUserGeoQueue = []) (hother : cs.finishedGeoQueue = []) : Sim cs .empty := by
  refine ⟨by rw [huser]; rfl, by rw [hother]; rfl, ?_, ?_⟩
  · intro i k hk
    cases hk
  · intro i k ready hk
    cases hk.1

/-- A change of anything else keeps the simulation. -/
theorem Sim.changed (h : Sim cs l) (hc : Changed cs cs') : Sim cs' l := by
  refine ⟨hc.user ▸ h.user, hc.other ▸ h.other, hc.memories ▸ h.memories, ?_⟩
  intro i k ready hk hready
  obtain ⟨geo, hgeo, hnews⟩ := h.bank i k ready hk hready
  have hmesh := congrArg (·[i]?) hc.meshes
  simp only [List.getElem?_map, hgeo, Option.map_some] at hmesh
  obtain ⟨geo', hgeo', hm⟩ := Option.map_eq_some_iff.mp hmesh
  exact ⟨geo', hgeo', by rw [hm]; exact hnews⟩

/-- What a rebuild says. -/
theorem newest_rebuildIndex {env : Externals} {e : Entropy} {index : ℕ} {userPower light : Bool}
    (h : cs.rebuildIndex env e index userPower light = .ok cs') :
    ∃ ready geo, cs'.newest userPower = some ready ∧ cs'.chunkMemories = cs.chunkMemories ∧
      cs'.finishedUserGeoQueue = cs.finishedUserGeoQueue ++ (if userPower then [ready] else []) ∧
      cs'.finishedGeoQueue = cs.finishedGeoQueue ++ (if userPower then [] else [ready]) ∧
      cs'.geobank = cs.geobank.set index geo ∧ index < cs.geobank.length ∧
      ready = ReadyMesh.new index ready.newpos geo.mesh := by
  obtain ⟨chunk, geo, -, hbank, rfl⟩ := rebuildIndex_spec h
  have hlt := (List.getElem?_eq_some_iff.mp hbank).1
  cases userPower
  · exact ⟨_, _, by simp [newest], rfl, by simp, rfl, rfl, hlt, rfl⟩
  · exact ⟨_, _, by simp [newest], rfl, rfl, by simp, rfl, hlt, rfl⟩

/-- Places of the log before news came say what they said. -/
theorem map_log_push {ks : List ℕ} {isFast : Bool} {ready : ReadyMesh} (h : ∀ k ∈ ks, k < l.log.length) :
    ks.map ((l.push isFast ready).log[·]?) = ks.map (l.log[·]?) :=
  List.map_congr_left fun k hk => List.getElem?_append_left (h k hk)

/-- **A rebuild** keeps the simulation, when its news are pushed. -/
theorem Sim.rebuilt (h : Sim cs l) (hs : l.Settled ReadyMesh.geoIndex) {env : Externals} {e : Entropy} {index : ℕ}
    {userPower light : Bool} (hr : cs.rebuildIndex env e index userPower light = .ok cs') {ready : ReadyMesh}
    (hready : cs'.newest userPower = some ready) : Sim cs' (l.push userPower ready) := by
  obtain ⟨ready', geo, hnewest, hmem, huser, hother, hgeo, hlt, hnew⟩ := newest_rebuildIndex hr
  obtain rfl : ready' = ready := Option.some.inj (hnewest.symm.trans hready)
  have hfast : l.fast.map ((l.push userPower ready').log[·]?) = cs.finishedUserGeoQueue.map some :=
    (map_log_push fun k hk => hs.waits k (List.mem_append_left _ hk)).trans h.user.symm
  have hslow : l.slow.map ((l.push userPower ready').log[·]?) = cs.finishedGeoQueue.map some :=
    (map_log_push fun k hk => hs.waits k (List.mem_append_right _ hk)).trans h.other.symm
  have hself : (l.push userPower ready').log[l.log.length]? = some ready' := List.getElem?_concat_length
  refine ⟨?_, ?_, ?_, ?_⟩
  · rw [huser, List.map_append, ← hfast]
    cases userPower with
    | false => exact List.append_nil _
    | true =>
      rw [Lanes.push, if_pos rfl, List.map_append]
      simp only [if_true, List.map_cons, List.map_nil]
      rw [← hself]
      rfl
  · rw [hother, List.map_append, ← hslow]
    cases userPower with
    | false =>
      rw [Lanes.push]
      simp only [Bool.false_eq_true, if_false, List.map_append, List.map_cons, List.map_nil]
      rw [← hself]
      rfl
    | true => exact List.append_nil _
  · intro i k hk
    obtain ⟨r, hr, hm⟩ := h.memories i k hk
    refine ⟨r, ?_, hmem ▸ hm⟩
    rw [← hr]
    exact List.getElem?_append_left (hs.known i k hk).1
  · intro i k r hk hr
    rcases hk.push_cases with ⟨hold, hi⟩ | ⟨rfl, rfl⟩
    · have hlog : l.log[k]? = some r := by
        rw [← hr]
        exact (List.getElem?_append_left (Lanes.about_lt hold.1)).symm
      obtain ⟨g, hg, hrg⟩ := h.bank i k r hold hlog
      refine ⟨g, ?_, hrg⟩
      have hindex : ready'.geoIndex = index := by rw [hnew]; rfl
      rw [hgeo, List.getElem?_set_ne (fun hii => hi (by rw [hindex]; exact hii.symm)), hg]
    · rw [hself] at hr
      cases hr
      have hindex : ready'.geoIndex = index := by rw [hnew]; rfl
      rw [hindex, hgeo, List.getElem?_set_self hlt]
      exact ⟨geo, rfl, hnew⟩

theorem Sim.taken (h : Sim cs l) : cs.takenNews.map some = l.taken.map (l.log[·]?) := by
  have huser := h.user
  have hother := h.other
  unfold takenNews Lanes.taken
  cases hg : cs.finishedGeoQueue with
  | nil =>
    rw [hg] at hother
    rw [List.map_eq_nil_iff.mp hother.symm, List.map_take, List.map_take, huser]
  | cons ready rest =>
    rw [hg] at hother
    obtain ⟨k, ks, hs, hk, -⟩ := List.map_eq_cons_iff.mp hother.symm
    rw [hs]
    simp only [List.map_append, List.map_cons, List.map_take, List.map_drop, huser, hk]

theorem Sim.left (h : Sim cs l) : cs.userNewsLeft.map some = l.fastLeft.map (l.log[·]?) := by
  have huser := h.user
  have hother := h.other
  unfold userNewsLeft Lanes.fastLeft
  cases hg : cs.finishedGeoQueue with
  | nil =>
    rw [hg] at hother
    rw [List.map_eq_nil_iff.mp hother.symm, List.map_drop, List.map_drop, huser]
  | cons ready rest =>
    rw [hg] at hother
    obtain ⟨k, ks, hs, -, -⟩ := List.map_eq_cons_iff.mp hother.symm
    rw [hs]
    rfl

/-- Writing the memories of news one after the other shows their places. -/
theorem foldl_note_display {news : List ReadyMesh} {ks : List ℕ} {memories : List ChunkMemory} {shown : ℕ → Option ℕ}
    (hks : news.map some = ks.map (l.log[·]?)) (hrange : ∀ ready ∈ news, ready.geoIndex < memories.length)
    (h : ∀ i k, shown i = some k → ∃ ready, l.log[k]? = some ready ∧ memories[i]? = some (.of ready)) :
    ∀ i k, ks.foldl (l.display ReadyMesh.geoIndex) shown i = some k →
      ∃ ready, l.log[k]? = some ready ∧ (news.foldl note memories)[i]? = some (.of ready) := by
  induction news generalizing ks memories shown with
  | nil =>
    obtain rfl := List.map_eq_nil_iff.mp hks.symm
    exact h
  | cons ready news ih =>
    obtain ⟨k, ks, rfl, hk, hrest⟩ := List.map_eq_cons_iff.mp hks.symm
    simp only [List.foldl_cons]
    refine ih hrest.symm (fun r hr => ?_) fun i j hj => ?_
    · rw [note, List.length_set]
      exact hrange r (List.mem_cons_of_mem _ hr)
    · have habout : l.about ReadyMesh.geoIndex k = some ready.geoIndex := by rw [Lanes.about, hk, Option.map_some]
      rw [Lanes.display, habout] at hj
      split at hj
      · next hi =>
        cases hi
        cases hj
        exact ⟨ready, hk, List.getElem?_set_self (hrange ready List.mem_cons_self)⟩
      · next hi =>
        obtain ⟨r, hr, hm⟩ := h i j hj
        refine ⟨r, hr, ?_⟩
        rw [note, List.getElem?_set_ne (fun he => hi (by rw [he])), hm]

/-- **A turn of the drawing loop** keeps the simulation. -/
theorem Sim.drawn (h : Sim cs l) (hd : cs.drawQueues = .ok cs') : Sim cs' (l.draw ReadyMesh.geoIndex) := by
  obtain ⟨rfl, hrange⟩ := drawQueues_spec hd
  refine ⟨h.left, ?_, foldl_note_display h.taken hrange h.memories, fun i k ready hk hready => h.bank i k ready hk hready⟩
  show (cs.finishedGeoQueue.drop 1).map some = (l.slow.drop 1).map (l.log[·]?)
  rw [List.map_drop, List.map_drop, h.other]

/-! ### Runs -/

/-- The runs of rebuilds and turns of the drawing loop, between which everything but the
queues, the memories and the vertex data may change, with the log of the news that the
rebuilds told. At each turn the lanes are as `ok` says. -/
inductive DrawRun (env : Externals) (ok : Lanes ReadyMesh ℕ → Prop) : ChunkSystem → Lanes ReadyMesh ℕ → Prop
  /-- No news wait. -/
  | start {cs : ChunkSystem} : cs.finishedUserGeoQueue = [] → cs.finishedGeoQueue = [] → DrawRun env ok cs .empty
  /-- Something else changes. -/
  | changed {cs cs' : ChunkSystem} {l : Lanes ReadyMesh ℕ} : DrawRun env ok cs l → Changed cs cs' → DrawRun env ok cs' l
  /-- A slot is rebuilt. -/
  | rebuilt {cs cs' : ChunkSystem} {l : Lanes ReadyMesh ℕ} (e : Entropy) (index : ℕ) (userPower light : Bool)
      {ready : ReadyMesh} : DrawRun env ok cs l → cs.rebuildIndex env e index userPower light = .ok cs' →
      cs'.newest userPower = some ready → DrawRun env ok cs' (l.push userPower ready)
  /-- The drawing loop takes a turn. -/
  | drawn {cs cs' : ChunkSystem} {l : Lanes ReadyMesh ℕ} : DrawRun env ok cs l → ok l → cs.drawQueues = .ok cs' →
      DrawRun env ok cs' (l.draw ReadyMesh.geoIndex)

variable {env : Externals}

/-- A move of a slot is a step of a run too: it changes other things, and rebuilds a slot. -/
theorem DrawRun.moved {ok : Lanes ReadyMesh ℕ → Prop} {e : Entropy} {index : ℕ} {cpos : IVec2}
    (h : DrawRun env ok cs l) (hm : cs.moveAndRebuild env e index cpos = .ok cs') :
    ∃ ready, cs'.newest false = some ready ∧ DrawRun env ok cs' (l.push false ready) := by
  rcases moveAndRebuild_cases hm with ⟨cf, -, hr⟩ | ⟨-, placed, generated, hp, hg, hr⟩
  · obtain ⟨ready, -, hready, -⟩ := newest_rebuildIndex hr
    exact ⟨ready, hready, h.rebuilt e _ _ _ hr hready⟩
  · obtain ⟨ready, -, hready, -⟩ := newest_rebuildIndex hr
    exact ⟨ready, hready, ((h.changed (changed_place hp)).changed (changed_generateChunk hg)).rebuilt e _ _ _ hr hready⟩

/-- In a run whose turns are in order the lanes are settled, and simulated. -/
theorem DrawRun.settled (h : DrawRun env (Lanes.InOrder ReadyMesh.geoIndex) cs l) :
    l.Settled ReadyMesh.geoIndex ∧ Sim cs l := by
  induction h with
  | start huser hother => exact ⟨.empty, .start huser hother⟩
  | changed _ hc ih => exact ⟨ih.1, ih.2.changed hc⟩
  | rebuilt e index userPower light _ hr hready ih => exact ⟨ih.1.push _ _, ih.2.rebuilt ih.1 hr hready⟩
  | drawn _ ho hd ih => exact ⟨ih.1.draw ho, ih.2.drawn hd⟩

/-- The memory of a slot tells the lengths of its vertex data. -/
structure Fits (memory : ChunkMemory) (mesh : Mesh) : Prop where
  /-- Solid cubes. -/
  length : memory.length = asI32 mesh.data32.length
  /-- Transparent cubes. -/
  tlength : memory.tlength = asI32 mesh.tdata32.length
  /-- Models. -/
  vlength : memory.vlength = asI32 mesh.vdata.length
  /-- Weather panes. -/
  wvlength : memory.wvlength = asI32 mesh.wvdata.length

theorem fits_new (index : ℕ) (pos : IVec2) (mesh : Mesh) : Fits (.of (ReadyMesh.new index pos mesh)) mesh := by
  refine ⟨?_, ?_, ?_, ?_⟩ <;> simp only [ChunkMemory.of, ReadyMesh.new]

/-- **The latest news win** in every run whose turns are in order: once both queues are
empty, the memory of a slot is what its latest news said, and fits its vertex data. A turn of the
drawing loop is one step here; in the source another thread can push news while the loop pops. -/
theorem drawn_latest (h : DrawRun env (Lanes.InOrder ReadyMesh.geoIndex) cs l) (huser : cs.finishedUserGeoQueue = [])
    (hother : cs.finishedGeoQueue = []) {i : ℕ} {ready : ReadyMesh}
    (hready : (l.log.filter (ReadyMesh.geoIndex · = i)).getLast? = some ready) :
    cs.chunkMemories[i]? = some (.of ready) ∧ ∃ geo, cs.geobank[i]? = some geo ∧ Fits (.of ready) geo.mesh := by
  obtain ⟨hs, hsim⟩ := h.settled
  obtain ⟨k, hk, hlog⟩ := Lanes.exists_latest hready
  have hfast : l.fast = [] := by simpa [huser] using hsim.user.symm
  have hslow : l.slow = [] := by simpa [hother] using hsim.other.symm
  have hshown := hs.shown_of_empty hfast hslow hk
  obtain ⟨ready', hlog', hm⟩ := hsim.memories i k hshown
  rw [hlog] at hlog'
  cases hlog'
  obtain ⟨geo, hgeo, hnew⟩ := hsim.bank i k ready hk hlog
  have hfits := fits_new i ready.newpos geo.mesh
  rw [← hnew] at hfits
  exact ⟨hm, geo, hgeo, hfits⟩

/-- The six sides of a cube. -/
def cubeSides : Mesh :=
  { Mesh.empty with data32 := .replicate 36 0, data8 := .replicate 36 0, data8rgb := .replicate 36 0 }

/-- A chunk of air has no vertices; with a block in the cell `(0, 5, 0)` it has the sides of
a cube. -/
def cubeMesh : Externals :=
  { Externals.plain with mesh := fun blockat _ _ _ => if blockat ⟨0, 5, 0⟩ = 0 then .empty else cubeSides }

/-- What the first move of a small pool leaves: the news that there are no vertices. -/
structure FirstMoved (cs : ChunkSystem) : Prop where
  /-- The slots. -/
  chunks : cs.chunks.length = 49
  /-- Their vertex data. -/
  bank : cs.geobank.length = 49
  /-- Their memories. -/
  memories : cs.chunkMemories.length = 49
  /-- No news for the user. -/
  user : cs.finishedUserGeoQueue = []
  /-- The news of the move. -/
  other : cs.finishedGeoQueue = [ReadyMesh.new 0 ⟨0, 0⟩ .empty]

/-- The first slot of a small pool is moved in a world of air, where chunks have no vertices. -/
theorem exists_firstMoved (env : Externals) (hair : (new env 1 0 0 false).perlin = .barren)
    (hmesh : ∀ rng, env.mesh (new env 1 0 0 false).blockat ∅ ⟨0, 0⟩ rng = .empty) :
    ∃ moved, (new env 1 0 0 false).moveAndRebuild env .plain 0 ⟨0, 0⟩ = .ok moved ∧ FirstMoved moved := by
  have hlight : ∀ x, Blocks.isLight ((new env 1 0 0 false).blockat x) = false := by
    intro x
    have hblock : (new env 1 0 0 false).blockat x = (new env 1 0 0 false).perlin.naturalBlockat x := rfl
    rw [hblock, hair]
    rfl
  refine ⟨_, moveAndRebuild_of_dark rfl (show _ = some ⟨0, false, defaultPos⟩ from rfl)
    (show _ = some ⟨defaultPos, .empty⟩ from rfl) hair rfl fun _ => hlight, ?_⟩
  refine ⟨rfl, rfl, rfl, rfl, ?_⟩
  simp only [hmesh]
  rfl

/-- The first slot of a small pool is moved, the user sets a block and the slot is rebuilt
for the user; then the drawing loop takes a turn. It takes the news of the rebuild first and
the older ones of the move after them, and remembers that there is nothing to draw. -/
theorem drawQueues_staleMesh :
    ∃ moved rebuilt drawn ready, (new cubeMesh 1 0 0 false).moveAndRebuild cubeMesh .plain 0 ⟨0, 0⟩ = .ok moved ∧
      (moved.setBlock ⟨0, 5, 0⟩ 1 true).rebuildIndex cubeMesh .plain 0 true false = .ok rebuilt ∧
      rebuilt.newest true = some ready ∧ rebuilt.drawQueues = .ok drawn ∧
      drawn.finishedUserGeoQueue = [] ∧ drawn.finishedGeoQueue = [] ∧
      ready.geoIndex = 0 ∧ ready.newlength = 36 ∧ (drawn.chunkMemories[0]?).map ChunkMemory.length = some 0 ∧
      (drawn.geobank[0]?).map (fun geo => geo.mesh.data32.length) = some 36 := by
  obtain ⟨moved, hmove, hchunks, hbank, hmem, huser, hother⟩ := exists_firstMoved cubeMesh rfl fun _ => rfl
  obtain ⟨edited, hedited⟩ : ∃ edited, moved.setBlock ⟨0, 5, 0⟩ 1 true = edited := ⟨_, rfl⟩
  have hcube : ∀ light pos rng, cubeMesh.mesh edited.blockat light pos rng = cubeSides := by
    intro light pos rng
    have hset : edited.blockat ⟨0, 5, 0⟩ = 1 := by rw [← hedited, setBlock, blockat_setBlockNoSound_user, if_pos rfl]
    simp [cubeMesh, hset]
  have hchanged := changed_setBlock moved ⟨0, 5, 0⟩ 1 true
  have hlength := congrArg List.length hchanged.meshes
  rw [List.length_map, List.length_map, hedited, hbank] at hlength
  obtain ⟨rebuilt, hrebuild⟩ : ∃ rebuilt, edited.rebuildIndex cubeMesh .plain 0 true false = .ok rebuilt := by
    apply rebuildIndex_returns
    · rw [← hedited, setBlock, setBlockNoSound, if_pos rfl, hchunks]
      omega
    · omega
  obtain ⟨chunk, geo, -, -, hrebuilt⟩ := rebuildIndex_spec hrebuild
  rw [hcube] at hrebuilt
  have huser' : rebuilt.finishedUserGeoQueue = [ReadyMesh.new 0 chunk.pos cubeSides] := by
    rw [hrebuilt]
    simp only [if_true, ← hedited, hchanged.user, huser, List.nil_append]
  have hother' : rebuilt.finishedGeoQueue = [ReadyMesh.new 0 ⟨0, 0⟩ .empty] := by
    rw [hrebuilt]
    simp only [if_true, ← hedited, hchanged.other, hother]
  have hbank' : rebuilt.geobank = edited.geobank.set 0 { geo with mesh := cubeSides } := by rw [hrebuilt]
  have hmem' : rebuilt.chunkMemories.length = 49 := by
    rw [hrebuilt, ← hedited, ← hmem, ← hchanged.memories]
  obtain ⟨drawn, hdraw⟩ : ∃ drawn, rebuilt.drawQueues = .ok drawn := by
    apply drawQueues_returns
    simp [huser', hother', ReadyMesh.new, hbank', hmem', hlength]
  obtain ⟨hdrawn, -⟩ := drawQueues_spec hdraw
  rw [userNewsLeft, takenNews, huser', hother'] at hdrawn
  refine ⟨moved, rebuilt, drawn, ReadyMesh.new 0 chunk.pos cubeSides, hmove, ?_, ?_, hdraw, ?_, ?_, rfl, ?_, ?_, ?_⟩
  · rw [hedited, hrebuild]
  · rw [newest, if_pos rfl, huser']
    rfl
  · rw [hdrawn]
  · rw [hdrawn]
    rfl
  · rw [ReadyMesh.newlength_new, cubeSides, List.length_replicate, asI32_of_lt (by omega)]
    rfl
  · rw [hdrawn]
    simp [note, hmem', Mesh.empty, asI32_of_lt]
  · rw [hdrawn]
    simp [hbank', hlength, cubeSides]

/-- The first slot of a small pool is moved and drawn. -/
theorem drawn_latest_afterMove : ∃ cs l ready, DrawRun .plain (Lanes.InOrder ReadyMesh.geoIndex) cs l ∧
    (l.log.filter (ReadyMesh.geoIndex · = 0)).getLast? = some ready ∧
    cs.chunkMemories[0]? = some (.of ready) ∧ ∃ geo, cs.geobank[0]? = some geo ∧ Fits (.of ready) geo.mesh := by
  obtain ⟨moved, hmove, -, hbank, hmem, huser, hother⟩ := exists_firstMoved .plain rfl fun _ => rfl
  have hstart : DrawRun .plain (Lanes.InOrder ReadyMesh.geoIndex) (new .plain 1 0 0 false) .empty := .start rfl rfl
  obtain ⟨ready, hready, hrun⟩ := hstart.moved hmove
  rw [newest, if_neg (by decide), hother, List.getLast?_singleton] at hready
  obtain rfl := Option.some.inj hready
  obtain ⟨drawn, hdraw⟩ : ∃ drawn, moved.drawQueues = .ok drawn := by
    apply drawQueues_returns
    simp [huser, hother, ReadyMesh.new, hbank, hmem]
  obtain ⟨hdrawn, -⟩ := drawQueues_spec hdraw
  rw [userNewsLeft, takenNews, huser, hother] at hdrawn
  have horder : ((Lanes.empty.push false (ReadyMesh.new 0 ⟨0, 0⟩ .empty)).InOrder ReadyMesh.geoIndex) := by
    simp [Lanes.InOrder, Lanes.taken, Lanes.fastLeft, Lanes.push, Lanes.empty]
  have hnews : ((Lanes.empty.push false (ReadyMesh.new 0 ⟨0, 0⟩ .empty)).draw ReadyMesh.geoIndex).log =
      [ReadyMesh.new 0 ⟨0, 0⟩ .empty] := rfl
  refine ⟨drawn, _, ReadyMesh.new 0 ⟨0, 0⟩ .empty, hrun.drawn horder hdraw, ?_, ?_⟩
  · rw [hnews]
    rfl
  · refine drawn_latest (hrun.drawn horder hdraw) ?_ ?_ ?_
    · rw [hdrawn]
    · rw [hdrawn]
      rfl
    · rw [hnews]
      rfl

end ChunkSystem

end Distgard
